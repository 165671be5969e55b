import Mathlib.Data.List.Basic

namespace MLRunX.ConsumerGroups

variable {α : Type}

structure Entry (α : Type) where
  id : Nat
  value : α
  deriving DecidableEq, Repr

/-- A stream with one consumer group. The group has been handed the entries up
to an id; an entry that it has been handed is pending until it is acknowledged. -/
structure Stream (α : Type) where
  entries : List (Entry α)
  lastId : Nat
  lastDelivered : Nat
  pending : List (Nat × String)
  acked : List Nat
  deriving DecidableEq, Repr

def Stream.empty : Stream α := ⟨[], 0, 0, [], []⟩

def Stream.extended (value : α) (s : Stream α) : List (Entry α) := s.entries ++ [⟨s.lastId + 1, value⟩]

/-- An addition may evict the oldest entries of a stream that is longer than `maxLen`. -/
def Stream.excess (maxLen evict : Nat) (s : Stream α) : Nat := min evict (s.entries.length + 1 - maxLen)

def Stream.evicted (maxLen evict : Nat) (value : α) (s : Stream α) : List (Entry α) :=
  (s.extended value).take (s.excess maxLen evict)

def Stream.add (maxLen evict : Nat) (value : α) (s : Stream α) : Stream α :=
  { s with entries := (s.extended value).drop (s.excess maxLen evict), lastId := s.lastId + 1 }

def Stream.fresh (s : Stream α) : List (Entry α) := s.entries.filter (fun e => s.lastDelivered < e.id)

/-- A count of zero is no limit. -/
def takeCount {β : Type} (count : Nat) (l : List β) : List β := if count = 0 then l else l.take count

def Stream.next (count : Nat) (s : Stream α) : List (Entry α) := takeCount count s.fresh

def Stream.lastRead (count : Nat) (s : Stream α) : Nat := ((s.next count).getLast?.map Entry.id).getD s.lastDelivered

/-- Entries that the group has not been handed go to a consumer. -/
def Stream.readNew (count : Nat) (consumer : String) (s : Stream α) : Stream α :=
  { s with
    lastDelivered := s.lastRead count
    pending := s.pending ++ (s.next count).map (fun e => (e.id, consumer)) }

def Stream.ack (id : Nat) (s : Stream α) : Stream α :=
  if s.pending.any (fun p => p.1 == id) then
    { s with pending := s.pending.filter (fun p => p.1 ≠ id), acked := s.acked ++ [id] }
  else s

/-- Ids grow along the stream. -/
structure Stream.Ordered (s : Stream α) : Prop where
  entries : s.entries.Pairwise (fun e e' => e.id < e'.id)
  last : ∀ e ∈ s.entries, e.id ≤ s.lastId
  delivered : s.lastDelivered ≤ s.lastId

theorem takeCount_prefix {β : Type} (count : Nat) (l : List β) : ∃ rest, l = takeCount count l ++ rest := by
  simp only [takeCount]
  split
  · exact ⟨[], (List.append_nil l).symm⟩
  · exact ⟨l.drop count, (List.take_append_drop count l).symm⟩

theorem takeCount_eq_nil {β : Type} {count : Nat} {l : List β} (h : takeCount count l = []) : l = [] := by
  simp only [takeCount] at h
  split at h
  · exact h
  · rename_i hcount
    exact (List.take_eq_nil_iff.mp h).resolve_left hcount

variable {s : Stream α} {e : Entry α}

theorem mem_fresh : e ∈ s.fresh ↔ e ∈ s.entries ∧ s.lastDelivered < e.id := by
  simp [Stream.fresh]

theorem ordered_empty : (Stream.empty : Stream α).Ordered :=
  ⟨.nil, nofun, Nat.le_refl 0⟩

theorem Stream.Ordered.fresh_sorted (h : s.Ordered) : s.fresh.Pairwise (fun e e' => e.id < e'.id) :=
  h.entries.filter _

theorem Stream.Ordered.add (h : s.Ordered) (maxLen evict : Nat) (value : α) :
    (s.add maxLen evict value).Ordered where
  entries := by
    apply List.Pairwise.drop
    apply List.pairwise_append.mpr
    refine ⟨h.entries, List.pairwise_singleton _ _, ?_⟩
    intro e he e' he'
    rw [List.mem_singleton.mp he']
    exact Nat.lt_succ_of_le (h.last e he)
  last := by
    intro e he
    rcases List.mem_append.mp (List.mem_of_mem_drop he) with hold | hnew
    · exact Nat.le_succ_of_le (h.last e hold)
    · rw [List.mem_singleton.mp hnew]
      exact Nat.le_refl _
  delivered := Nat.le_succ_of_le h.delivered

theorem last_id_le {l : List (Entry α)} {d : Nat} (hd : ∀ e ∈ l, d < e.id)
    (hl : l.Pairwise (fun e e' => e.id < e'.id)) :
    d ≤ (l.getLast?.map Entry.id).getD d ∧ ∀ e ∈ l, e.id ≤ (l.getLast?.map Entry.id).getD d := by
  rcases List.eq_nil_or_concat l with rfl | ⟨init, last, rfl⟩
  · exact ⟨Nat.le_refl d, nofun⟩
  · rw [List.concat_eq_append] at hd hl ⊢
    rw [List.getLast?_concat, Option.map_some, Option.getD_some]
    refine ⟨Nat.le_of_lt (hd last (List.mem_append_right _ List.mem_cons_self)), fun e he => ?_⟩
    rcases List.mem_append.mp he with he | he
    · exact Nat.le_of_lt ((List.pairwise_append.mp hl).2.2 e he last List.mem_cons_self)
    · exact Nat.le_of_eq (congrArg Entry.id (List.mem_singleton.mp he))

theorem Stream.Ordered.readNew (h : s.Ordered) (count : Nat) (consumer : String) :
    (s.readNew count consumer).Ordered where
  entries := h.entries
  last := h.last
  delivered := by
    show s.lastRead count ≤ s.lastId
    rw [Stream.lastRead]
    cases hlast : (s.next count).getLast? with
    | none => exact h.delivered
    | some e =>
        obtain ⟨rest, hrest⟩ := takeCount_prefix count s.fresh
        have he : e ∈ s.fresh := by
          rw [hrest]
          exact List.mem_append_left _ (List.mem_of_getLast? hlast)
        exact h.last e (mem_fresh.mp he).1

theorem Stream.Ordered.ack (h : s.Ordered) (id : Nat) : (s.ack id).Ordered := by
  rw [Stream.ack]
  split
  · exact ⟨h.entries, h.last, h.delivered⟩
  · exact h

theorem Stream.Ordered.fresh_readNew (h : s.Ordered) (count : Nat) (consumer : String) :
    s.fresh = s.next count ++ (s.readNew count consumer).fresh := by
  obtain ⟨rest, hrest⟩ := takeCount_prefix count s.fresh
  have hsorted := h.fresh_sorted
  have hfresh : ∀ e ∈ s.fresh, s.lastDelivered < e.id := fun e he => (mem_fresh.mp he).2
  change s.fresh = s.next count ++ rest at hrest
  have hnext := last_id_le (l := s.next count) (d := s.lastDelivered)
    (fun e he => hfresh e (hrest ▸ List.mem_append_left _ he))
    (List.Pairwise.sublist (hrest ▸ List.sublist_append_left _ _) hsorted)
  have hlater : ∀ e ∈ rest, s.lastRead count < e.id := by
    intro e he
    rw [Stream.lastRead]
    cases hlast : (s.next count).getLast? with
    | none => exact hfresh e (hrest ▸ List.mem_append_right _ he)
    | some last =>
        rw [hrest] at hsorted
        exact (List.pairwise_append.mp hsorted).2.2 last (List.mem_of_getLast? hlast) e he
  have hagain : (s.readNew count consumer).fresh = s.fresh.filter (fun e => s.lastRead count < e.id) := by
    rw [Stream.fresh, Stream.fresh, List.filter_filter]
    apply List.filter_congr
    intro e _
    show decide (s.lastRead count < e.id) = (decide (s.lastRead count < e.id) && decide (s.lastDelivered < e.id))
    by_cases hlt : s.lastRead count < e.id
    · rw [decide_eq_true hlt, decide_eq_true (Nat.lt_of_le_of_lt hnext.1 hlt), Bool.and_self]
    · rw [decide_eq_false hlt, Bool.false_and]
  have hread : (s.next count).filter (fun e => s.lastRead count < e.id) = [] := by
    apply List.filter_eq_nil_iff.mpr
    intro e he
    exact fun hlt => Nat.not_lt_of_le (hnext.2 e he) (of_decide_eq_true hlt)
  have hkept : rest.filter (fun e => s.lastRead count < e.id) = rest :=
    List.filter_eq_self.mpr (fun e he => decide_eq_true (hlater e he))
  rw [hagain]
  nth_rewrite 2 [hrest]
  rw [List.filter_append, hread, hkept, List.nil_append]
  exact hrest

theorem fresh_ack (s : Stream α) (id : Nat) : (s.ack id).fresh = s.fresh := by
  rw [Stream.ack]
  split <;> rfl

theorem ack_pending {id : Nat} (h : ∃ p ∈ s.pending, p.1 = id) :
    s.ack id = { s with pending := s.pending.filter (fun p => p.1 ≠ id), acked := s.acked ++ [id] } := by
  rw [Stream.ack, if_pos]
  simpa using h

theorem mem_add (maxLen evict : Nat) {value : α} (h : e ∈ s.extended value) :
    e ∈ s.evicted maxLen evict value ∨ e ∈ (s.add maxLen evict value).entries := by
  rw [← List.take_append_drop (s.excess maxLen evict) (s.extended value)] at h
  exact List.mem_append.mp h

theorem Stream.Ordered.next_nodup (h : s.Ordered) (count : Nat) : ((s.next count).map Entry.id).Nodup := by
  obtain ⟨rest, hrest⟩ := takeCount_prefix count s.fresh
  have hsorted : (s.next count).Pairwise (fun e e' => e.id < e'.id) :=
    List.Pairwise.sublist (hrest ▸ List.sublist_append_left _ _) h.fresh_sorted
  apply List.pairwise_map.mpr
  exact hsorted.imp (fun hlt => Nat.ne_of_lt hlt)

theorem lastId_ack (s : Stream α) (id : Nat) : (s.ack id).lastId = s.lastId := by
  rw [Stream.ack]
  split <;> rfl

end MLRunX.ConsumerGroups
