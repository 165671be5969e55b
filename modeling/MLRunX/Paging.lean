import Mathlib.Data.List.Basic
import Mathlib.Algebra.GroupWithZero.Nat

namespace MLRunX.Paging

variable {ρ ι : Type}

/-- Items with the cursor behind the last of them, and whether to go on. -/
structure Page (ι : Type) where
  items : List ι
  next : Option Int
  hasMore : Bool
  deriving DecidableEq, Repr

/-- What a client reads who asks for pages from a cursor on, as long as there are more. -/
inductive Paged (fetch : Option Int → Page ι) : Option Int → List ι → Prop
  | last {cursor} (h : (fetch cursor).hasMore = false) : Paged fetch cursor (fetch cursor).items
  | more {cursor rest} (h : (fetch cursor).hasMore = true) (hrest : Paged fetch (fetch cursor).next rest) :
      Paged fetch cursor ((fetch cursor).items ++ rest)

theorem Paged.last_iff {fetch : Option Int → Page ι} {cursor : Option Int} {items : List ι}
    (h : (fetch cursor).hasMore = false) : Paged fetch cursor items ↔ items = (fetch cursor).items := by
  constructor
  · intro hp
    cases hp with
    | last => rfl
    | more hmore => exact absurd (h.symm.trans hmore) (by decide)
  · rintro rfl
    exact .last h

theorem Paged.more_iff {fetch : Option Int → Page ι} {cursor : Option Int} {rest : List ι}
    (h : (fetch cursor).hasMore = true) :
    Paged fetch cursor ((fetch cursor).items ++ rest) ↔ Paged fetch (fetch cursor).next rest := by
  constructor
  · intro hp
    generalize hall : (fetch cursor).items ++ rest = all at hp
    cases hp with
    | last hlast => exact absurd (hlast.symm.trans h) (by decide)
    | more _ hrest =>
        obtain rfl := List.append_cancel_left hall
        exact hrest
  · exact .more h

theorem flatMap_pages (items : List ι) (limit n : Nat) :
    (List.range n).flatMap (fun k => (items.drop (k * limit)).take limit) = items.take (n * limit) := by
  induction n with
  | zero => simp
  | succ n ih =>
      rw [List.range_succ, List.flatMap_append, ih, Nat.succ_mul, List.take_add, List.flatMap_singleton]

variable (key : ρ → Int) (decode : ρ → Option ι)

def behind (cursor : Option Int) (rows : List ρ) : List ρ :=
  rows.filter (fun row => cursor.all (fun after => decide (after < key row)))

/-- A page read from a window of rows: the rows are decoded and the items cut
only after the window is fetched. -/
def windowPage (keyOf : ι → Int) (limit window : Nat) (rows : List ρ) (cursor : Option Int) : Page ι where
  items := (((behind key cursor rows).take window).filterMap decode).take limit
  next := (((((behind key cursor rows).take window).filterMap decode).take limit).getLast?.map keyOf).or cursor
  hasMore := decide (limit < (((behind key cursor rows).take window).filterMap decode).length)

def afterItems : Nat → List ρ → List ρ
  | 0, rows => rows
  | _ + 1, [] => []
  | n + 1, row :: rows => if (decode row).isSome then afterItems n rows else afterItems (n + 1) rows

/-- Whenever a whole number of pages is read, one more item than a page holds, or
all that are left, stand in the window. -/
def Spread (limit window : Nat) (rows : List ρ) : Prop :=
  ∀ k, min (limit + 1) ((afterItems decode (k * limit) rows).filterMap decode).length ≤
    (((afterItems decode (k * limit) rows).take window).filterMap decode).length

variable {key decode}

theorem afterItems_zero (rows : List ρ) : afterItems decode 0 rows = rows := by
  cases rows <;> rfl

theorem afterItems_succ (n : Nat) (row : ρ) (rows : List ρ) :
    afterItems decode (n + 1) (row :: rows) =
      if (decode row).isSome then afterItems decode n rows else afterItems decode (n + 1) rows := rfl

theorem afterItems_nil (n : Nat) : afterItems decode n ([] : List ρ) = [] := by
  cases n <;> rfl

theorem afterItems_add (m n : Nat) (rows : List ρ) :
    afterItems decode (m + n) rows = afterItems decode n (afterItems decode m rows) := by
  induction rows generalizing m with
  | nil => rw [afterItems_nil, afterItems_nil, afterItems_nil]
  | cons row rows ih =>
      cases m with
      | zero => rw [Nat.zero_add, afterItems_zero]
      | succ m =>
          rw [Nat.succ_add, afterItems_succ, afterItems_succ]
          split
          · exact ih m
          · have h := ih (m + 1)
            rwa [Nat.succ_add] at h

theorem filterMap_afterItems (n : Nat) (rows : List ρ) :
    (afterItems decode n rows).filterMap decode = (rows.filterMap decode).drop n := by
  induction rows generalizing n with
  | nil => simp [afterItems_nil]
  | cons row rows ih =>
      cases n with
      | zero => rfl
      | succ n =>
          cases hd : decode row with
          | none => simpa [afterItems_succ, hd] using ih (n + 1)
          | some item => simpa [afterItems_succ, hd] using ih n

theorem length_afterItems_le (n : Nat) (rows : List ρ) : (afterItems decode n rows).length ≤ rows.length := by
  induction rows generalizing n with
  | nil => simp [afterItems_nil]
  | cons row rows ih =>
      cases n with
      | zero => exact Nat.le_refl _
      | succ n =>
          rw [afterItems_succ, List.length_cons]
          split
          · exact Nat.le_succ_of_le (ih n)
          · exact Nat.le_succ_of_le (ih (n + 1))

theorem length_afterItems_lt {n : Nat} {rows : List ρ} (hrows : rows ≠ []) :
    (afterItems decode (n + 1) rows).length < rows.length := by
  cases rows with
  | nil => exact absurd rfl hrows
  | cons row rows =>
      rw [afterItems_succ, List.length_cons]
      split
      · exact Nat.lt_succ_of_le (length_afterItems_le n rows)
      · exact Nat.lt_succ_of_le (length_afterItems_le (n + 1) rows)

theorem exists_split_afterItems {n : Nat} {rows : List ρ} (h : n < (rows.filterMap decode).length) :
    ∃ front row item, rows = front ++ row :: afterItems decode (n + 1) rows ∧ decode row = some item ∧
      ((rows.filterMap decode).take (n + 1)).getLast? = some item := by
  induction rows generalizing n with
  | nil => exact absurd h (Nat.not_lt_zero _)
  | cons row rows ih =>
      cases hd : decode row with
      | none =>
          rw [List.filterMap_cons_none hd] at h ⊢
          obtain ⟨front, row', item, hrows, hitem, hlast⟩ := ih h
          refine ⟨row :: front, row', item, ?_, hitem, hlast⟩
          simpa [afterItems_succ, hd] using hrows
      | some item =>
          rw [List.filterMap_cons_some hd] at h ⊢
          cases n with
          | zero => exact ⟨[], row, item, by simp [afterItems_succ, afterItems_zero, hd], hd, rfl⟩
          | succ n =>
              obtain ⟨front, row', item', hrows, hitem, hlast⟩ := ih (Nat.lt_of_succ_lt_succ h)
              refine ⟨row :: front, row', item', ?_, hitem, ?_⟩
              · simpa [afterItems_succ, hd] using hrows
              · rw [List.take_succ_cons, List.getLast?_cons, hlast]
                rfl

theorem spread_iff (limit window : Nat) (rows : List ρ) :
    Spread decode limit window rows ↔
      min (limit + 1) (rows.filterMap decode).length ≤ ((rows.take window).filterMap decode).length ∧
        Spread decode limit window (afterItems decode limit rows) := by
  have hsucc : ∀ k, afterItems decode ((k + 1) * limit) rows =
      afterItems decode (k * limit) (afterItems decode limit rows) := by
    intro k
    rw [← afterItems_add, Nat.succ_mul, Nat.add_comm]
  constructor
  · intro h
    refine ⟨by simpa [afterItems_zero] using h 0, fun k => ?_⟩
    rw [← hsucc]
    exact h (k + 1)
  · rintro ⟨hfirst, hrest⟩ k
    cases k with
    | zero => simpa [afterItems_zero] using hfirst
    | succ k =>
        rw [hsucc]
        exact hrest k

theorem spread_of_items_nil {limit window : Nat} {rows : List ρ} (h : rows.filterMap decode = []) :
    Spread decode limit window rows := by
  intro k
  rw [filterMap_afterItems, h]
  simp

section Ascending

variable {keyOf : ι → Int} {rows : List ρ} (cursor : Option Int)

theorem behind_item (hrows : rows.Pairwise (fun a b => key a < key b))
    (hkey : ∀ row item, decode row = some item → keyOf item = key row) {n : Nat}
    (h : n < ((behind key cursor rows).filterMap decode).length) :
    ∃ item, (((behind key cursor rows).filterMap decode).take (n + 1)).getLast? = some item ∧
      behind key (some (keyOf item)) rows = afterItems decode (n + 1) (behind key cursor rows) := by
  obtain ⟨front, row, item, hsplit, hitem, hlast⟩ := exists_split_afterItems h
  refine ⟨item, hlast, ?_⟩
  have hmem : row ∈ behind key cursor rows := by
    rw [hsplit]
    simp
  have hcursor : ∀ after ∈ cursor, after < key row := by
    intro after hafter
    have hall := (List.mem_filter.mp hmem).2
    rw [hafter] at hall
    exact of_decide_eq_true hall
  have hnarrow : behind key (some (keyOf item)) rows = behind key (some (key row)) (behind key cursor rows) := by
    rw [hkey row item hitem, behind, behind, behind, List.filter_filter]
    apply List.filter_congr
    intro r _
    cases cursor with
    | none => simp
    | some after =>
        have hlt : after < key row := hcursor after rfl
        have himp : key row < key r → after < key r := Int.lt_trans hlt
        by_cases hr : key row < key r
        · simp [hr, himp hr]
        · simp [hr]
  have hsorted : (behind key cursor rows).Pairwise (fun a b => key a < key b) := hrows.filter _
  rw [hnarrow]
  generalize afterItems decode (n + 1) (behind key cursor rows) = rest at hsplit
  rw [hsplit] at hsorted ⊢
  obtain ⟨_, hrest, hfront⟩ := List.pairwise_append.mp hsorted
  have hbefore : front.filter (fun r => (some (key row)).all (fun after => decide (after < key r))) = [] := by
    apply List.filter_eq_nil_iff.mpr
    intro r hr hlt
    exact Int.lt_asymm (of_decide_eq_true hlt) (hfront r hr row List.mem_cons_self)
  have hafter : rest.filter (fun r => (some (key row)).all (fun after => decide (after < key r))) = rest := by
    apply List.filter_eq_self.mpr
    intro r hr
    exact decide_eq_true ((List.pairwise_cons.mp hrest).1 r hr)
  rw [behind, List.filter_append, hbefore, List.filter_cons_of_neg (by simp), hafter, List.nil_append]

theorem behind_last {front rest : List ρ} (hrows : (front ++ rest).Pairwise (fun a b => key a < key b)) :
    behind key (front.getLast?.map key) (front ++ rest) = rest := by
  rcases List.eq_nil_or_concat front with rfl | ⟨before, row, rfl⟩
  · exact List.filter_eq_self.mpr (fun _ _ => rfl)
  · obtain ⟨hfront, -, hrest⟩ := List.pairwise_append.mp hrows
    rw [List.concat_eq_append] at hfront hrest ⊢
    rw [List.getLast?_concat, behind, List.filter_append, List.filter_eq_nil_iff.mpr, List.nil_append]
    · apply List.filter_eq_self.mpr
      intro r hr
      exact decide_eq_true (hrest row (by simp) r hr)
    · intro r hr hlt
      have hlt : key row < key r := of_decide_eq_true hlt
      rcases List.mem_append.mp hr with hr | hr
      · exact Int.lt_asymm hlt ((List.pairwise_append.mp hfront).2.2 r hr row List.mem_cons_self)
      · rw [List.mem_singleton.mp hr] at hlt
        exact Int.lt_irrefl _ hlt

theorem paged_iff_spread (hrows : rows.Pairwise (fun a b => key a < key b))
    (hkey : ∀ row item, decode row = some item → keyOf item = key row) {limit : Nat} (hlimit : 0 < limit)
    (window : Nat) :
    Paged (windowPage key decode keyOf limit window rows) cursor ((behind key cursor rows).filterMap decode) ↔
      Spread decode limit window (behind key cursor rows) := by
  generalize hlength : (behind key cursor rows).length = length
  induction length using Nat.strongRecOn generalizing cursor with
  | ind length ih =>
      have hinit : ((behind key cursor rows).take window).filterMap decode <+:
          (behind key cursor rows).filterMap decode :=
        (List.take_prefix window _).filterMap decode
      by_cases hmore : limit < (((behind key cursor rows).take window).filterMap decode).length
      · have htrue : (windowPage key decode keyOf limit window rows cursor).hasMore = true := decide_eq_true hmore
        obtain ⟨n, rfl⟩ := Nat.exists_eq_succ_of_ne_zero (Nat.pos_iff_ne_zero.mp hlimit)
        obtain ⟨item, hitem, hbehind⟩ := behind_item cursor hrows hkey
          (Nat.lt_of_lt_of_le (Nat.lt_of_succ_lt hmore) hinit.length_le)
        have hitems : (windowPage key decode keyOf (n + 1) window rows cursor).items =
            ((behind key cursor rows).filterMap decode).take (n + 1) := by
          obtain ⟨tail, htail⟩ := hinit
          rw [← htail, List.take_append_of_le_length (Nat.le_of_lt hmore)]
          rfl
        have hnext : (windowPage key decode keyOf (n + 1) window rows cursor).next = some (keyOf item) := by
          change (Option.map keyOf (windowPage key decode keyOf (n + 1) window rows cursor).items.getLast?).or
            cursor = _
          rw [hitems, hitem]
          rfl
        have hrest : ((behind key cursor rows).filterMap decode).drop (n + 1) =
            (behind key (some (keyOf item)) rows).filterMap decode := by
          rw [hbehind, filterMap_afterItems]
        have hshorter : (behind key (some (keyOf item)) rows).length < length := by
          rw [hbehind, ← hlength]
          apply length_afterItems_lt
          rintro hnil
          rw [hnil] at hmore
          simp at hmore
        rw [← List.take_append_drop (n + 1) ((behind key cursor rows).filterMap decode), ← hitems,
          Paged.more_iff htrue, hnext, hrest, ih _ hshorter _ rfl, hbehind,
            spread_iff (n + 1) window (behind key cursor rows)]
        exact (and_iff_right (Nat.le_trans (Nat.min_le_left _ _) hmore)).symm
      · have hlast : (windowPage key decode keyOf limit window rows cursor).hasMore = false :=
          decide_eq_false hmore
        have hitems : (windowPage key decode keyOf limit window rows cursor).items =
            ((behind key cursor rows).take window).filterMap decode :=
              List.take_of_length_le (Nat.le_of_not_lt hmore)
        rw [Paged.last_iff hlast, hitems, spread_iff]
        constructor
        · intro hall
          refine ⟨by rw [← hall]; exact Nat.min_le_right _ _, spread_of_items_nil ?_⟩
          rw [filterMap_afterItems, hall]
          exact List.drop_eq_nil_of_le (Nat.le_of_not_lt hmore)
        · rintro ⟨hfirst, -⟩
          exact (hinit.eq_of_length_le (by omega)).symm

end Ascending

end MLRunX.Paging
