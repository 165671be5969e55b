import MLRunX.Statements

namespace MLRunX.Atomicity

open Commands Sqlite Statements

variable {σ ε ε' α β : Type}

/-- A program that fails leaves the state as it was. -/
def AllOrNothing (x : Command σ ε α) (s : σ) : Prop := ∀ e s', x s = (.error e, s') → s' = s

theorem allOrNothing_of_error {x : Command σ ε α} {s s' : σ} {e : ε} (h : x s = (.error e, s')) :
    AllOrNothing x s ↔ s' = s := by
  constructor
  · intro hall
    exact hall e s' h
  · rintro hsame e' s'' h'
    exact (congrArg Prod.snd (h'.symm.trans h)).trans hsame

theorem allOrNothing_of_ok {x : Command σ ε α} {s s' : σ} {a : α} (h : x s = (.ok a, s')) : AllOrNothing x s :=
  fun _ _ h' => nomatch congrArg Prod.fst (h'.symm.trans h)

theorem not_allOrNothing {γ : Type} (view : σ → γ) {x : Command σ ε α} {s : σ} (hfails : (x s).1.isOk = false)
    (hview : view (x s).2 ≠ view s) : ¬ AllOrNothing x s := by
  intro h
  cases hx : x s with
  | mk result s' =>
      rw [hx] at hfails hview
      cases result with
      | ok a => cases hfails
      | error e => exact hview (congrArg view (h e s' hx))

/-- What a program writes between the beginning and the commit of a transaction
is rolled back unless all of it succeeds. -/
def transaction (begin commit : Option String) (x : Command σ SqliteError α) : Command σ SqliteError α := fun s =>
  match begin with
  | some text => (.error (.database text), s)
  | none => match x s, commit with
      | (.ok a, s'), none => (.ok a, s')
      | (.ok _, _), some text => (.error (.database text), s)
      | (.error e, _), _ => (.error e, s)

theorem allOrNothing_transaction (begin commit : Option String) (x : Command σ SqliteError α) (s : σ) :
    AllOrNothing (transaction begin commit x) s := by
  intro e s' h
  simp only [transaction] at h
  split at h
  · exact (congrArg Prod.snd h).symm
  · split at h
    · cases h
    · exact (congrArg Prod.snd h).symm
    · exact (congrArg Prod.snd h).symm

theorem transaction_eq_ok {begin commit : Option String} {x : Command σ SqliteError α} {s s' : σ} {a : α} :
    transaction begin commit x s = (.ok a, s') ↔ begin = none ∧ commit = none ∧ x s = (.ok a, s') := by
  constructor
  · intro h
    unfold transaction at h
    split at h
    · cases h
    · split at h
      · rename_i hx
        exact ⟨rfl, rfl, hx.trans h⟩
      · cases h
      · cases h
  · rintro ⟨rfl, rfl, hx⟩
    simp only [transaction, hx]

theorem keeps_transaction {I : σ → Prop} {begin commit : Option String} {x : Command σ SqliteError α}
    (h : Keeps I x) :
    Keeps I (transaction begin commit x) := by
  apply triple_of_after
  intro s hs
  cases hx : transaction begin commit x s with
  | mk answer s' =>
      cases answer with
      | ok a => exact h.of_ok hs (transaction_eq_ok.mp hx).2.2
      | error e =>
          rw [allOrNothing_transaction begin commit x s e s' hx]
          exact hs

theorem allOrNothing_bind_completes {x : Command σ ε α} {f : α → Command σ ε β} (hf : ∀ a, Completes (f a))
    {s : σ} :
    AllOrNothing (x >>= f) s ↔ AllOrNothing x s := by
  constructor
  · intro h e s' hx
    refine h e s' ?_
    simp only [bind, hx]
  · intro h e s' hx
    rcases bind_eq_error hx with hx | ⟨a, s'', -, hfail⟩
    · exact h e s' hx
    · exact absurd hfail (hf a).not_error

theorem allOrNothing_zoom {τ : Type} {get : σ → τ} {set : τ → σ → σ} (hget : ∀ t s, get (set t s) = t)
    (hset : ∀ s, set (get s) s = s) {x : Command τ ε α} {s : σ} :
    AllOrNothing (zoom get set x) s ↔ AllOrNothing x (get s) := by
  constructor
  · intro h e t hx
    have hs := h e (set t s) (by simp only [zoom, hx])
    rw [← hget t s, hs]
  · intro h e s' hx
    obtain ⟨he, rfl⟩ := Prod.mk.inj hx
    have hsame : (x (get s)).2 = get s := h e _ (Prod.ext he rfl)
    exact (congrArg (fun t => set t s) hsame).trans (hset s)

abbrev Write (σ : Type) := Option String × (σ → σ)

def granted (ws : List (Write σ)) : Prop := ∀ w ∈ ws, w.1 = none

/-- The statements before the first one that is refused. -/
def effective (ws : List (Write σ)) : List (Write σ) := ws.takeWhile (fun w => w.1.isNone)

def written (ws : List (Write σ)) (s : σ) : σ := (effective ws).foldl (fun s w => w.2 s) s

/-- A program is a list of statements: it stops at the first that is refused. -/
structure Runs (ws : List (Write σ)) (x : Command σ ε α) : Prop where
  state : ∀ s, (x s).2 = written ws s
  succeeds : ∀ s, (∃ a, (x s).1 = .ok a) ↔ granted ws

theorem effective_append_of_granted {ws : List (Write σ)} (h : granted ws) (ws' : List (Write σ)) :
    effective (ws ++ ws') = ws ++ effective ws' := by
  induction ws with
  | nil => rfl
  | cons w ws ih =>
      have hrest := List.forall_mem_cons.mp h
      simp only [effective, List.cons_append, List.takeWhile_cons, hrest.1, Option.isNone_none, if_true]
      exact congrArg (w :: ·) (ih hrest.2)

theorem effective_append_of_refused {ws : List (Write σ)} (h : ¬ granted ws) (ws' : List (Write σ)) :
    effective (ws ++ ws') = effective ws := by
  induction ws with
  | nil => exact absurd (fun _ hw => nomatch hw) h
  | cons w ws ih =>
      simp only [effective, List.cons_append, List.takeWhile_cons]
      cases hw : w.1 with
      | some text => rfl
      | none =>
          have hrest : ¬ granted ws := fun hg => h (List.forall_mem_cons.mpr ⟨hw, hg⟩)
          exact congrArg (w :: ·) (ih hrest)

theorem granted_append {ws ws' : List (Write σ)} : granted (ws ++ ws') ↔ granted ws ∧ granted ws' :=
  List.forall_mem_append

theorem runs_pure (a : α) : Runs [] (pure a : Command σ ε α) :=
  ⟨fun _ => rfl, fun _ => ⟨fun _ => nofun, fun _ => ⟨a, rfl⟩⟩⟩

theorem runs_execute (fault : Option String) (result : σ → α) (write : σ → σ) :
    Runs [(fault, write)] (execute fault (fun s => .ok (result s, write s))) := by
  cases fault with
  | some text => exact ⟨fun _ => rfl, fun _ => ⟨nofun, fun h => nomatch h _ List.mem_cons_self⟩⟩
  | none => exact ⟨fun _ => rfl, fun s =>
      ⟨fun _ w hw => List.mem_singleton.mp hw ▸ rfl, fun _ => ⟨result s, rfl⟩⟩⟩

theorem runs_mapError {ws : List (Write σ)} {f : ε → ε'} {x : Command σ ε α} (h : Runs ws x) :
    Runs ws (mapError f x) := by
  refine ⟨h.state, fun s => Iff.trans ?_ (h.succeeds s)⟩
  simp only [mapError]
  generalize (x s).1 = r
  rcases r with e | a
  · constructor
    · rintro ⟨_, h⟩
      cases h
    · rintro ⟨_, h⟩
      cases h
  · exact ⟨fun _ => ⟨a, rfl⟩, fun _ => ⟨a, rfl⟩⟩

theorem runs_bind {ws ws' : List (Write σ)} {x : Command σ ε α} {f : α → Command σ ε β} (hx : Runs ws x)
    (hf : ∀ a, Runs ws' (f a)) : Runs (ws ++ ws') (x >>= f) := by
  have hcases : ∀ s, (∃ a, (x >>= f) s = f a (written ws s) ∧ granted ws) ∨
      (((x >>= f) s).2 = written ws s ∧ (¬ ∃ b, ((x >>= f) s).1 = .ok b) ∧ ¬ granted ws) := by
    intro s
    have hstate := hx.state s
    have hsucceeds := hx.succeeds s
    simp only [bind]
    generalize x s = r at hstate hsucceeds ⊢
    rcases r with ⟨e | a, s'⟩
    · exact .inr ⟨hstate, nofun, fun hg => nomatch (hsucceeds.mpr hg)⟩
    · rw [← hstate]
      exact .inl ⟨a, rfl, hsucceeds.mp ⟨a, rfl⟩⟩
  constructor
  · intro s
    rcases hcases s with ⟨a, happly, hg⟩ | ⟨hstate, -, hg⟩
    · have heff : effective ws = ws := by simpa [effective] using effective_append_of_granted hg []
      rw [happly, (hf a).state, written, written, written, effective_append_of_granted hg, List.foldl_append, heff]
    · rw [hstate, written, written, effective_append_of_refused hg]
  · intro s
    rw [granted_append]
    rcases hcases s with ⟨a, happly, hg⟩ | ⟨-, hfails, hg⟩
    · rw [happly, (hf a).succeeds]
      exact ⟨fun h => ⟨hg, h⟩, And.right⟩
    · exact ⟨fun h => absurd h hfails, fun h => absurd h.1 hg⟩

def writes {ρ : Type} (write : ρ → σ → σ) : (faults : Nat → Option String) → List ρ → List (Write σ)
  | _, [] => []
  | faults, row :: rows => (faults 0, write row) :: writes write (fun i => faults (i + 1)) rows

theorem written_writes {ρ : Type} (write : ρ → σ → σ) (faults : Nat → Option String)
    (rows : List ρ) (s : σ) :
    ∃ k ≤ rows.length, (∀ i < k, faults i = none) ∧ (k < rows.length → (faults k).isSome) ∧
      written (writes write faults rows) s = (rows.take k).foldl (fun s row => write row s) s := by
  induction rows generalizing faults s with
  | nil => exact ⟨0, Nat.le_refl 0, fun _ h => absurd h (Nat.not_lt_zero _), fun h =>
      absurd h (Nat.lt_irrefl 0), rfl⟩
  | cons row rows ih =>
      cases h0 : faults 0 with
      | some text =>
          refine ⟨0, Nat.zero_le _, fun _ h => absurd h (Nat.not_lt_zero _), fun _ => h0 ▸ rfl, ?_⟩
          simp [written, effective, writes, h0]
      | none =>
          obtain ⟨k, hk, hnone, hsome, hwritten⟩ := ih (fun i => faults (i + 1)) (write row s)
          refine ⟨k + 1, Nat.succ_le_succ hk, fun i hi => ?_, fun h => hsome (Nat.lt_of_succ_lt_succ h), ?_⟩
          · cases i with
            | zero => exact h0
            | succ i => exact hnone i (Nat.lt_of_succ_lt_succ hi)
          · rw [List.take_succ_cons, List.foldl_cons, ← hwritten]
            simp [written, effective, writes, h0]

theorem runs_bind_pure {ws : List (Write σ)} {x : Command σ ε α} (b : β) (hx : Runs ws x) :
    Runs ws (x >>= fun _ => pure b) := by
  have h := runs_bind hx (fun _ => runs_pure b)
  rwa [List.append_nil] at h

theorem runs_executeEach {ρ : Type} (write : ρ → σ → σ) (faults : Nat → Option String) (rows : List ρ) :
    Runs (writes write faults rows) (executeEach write faults rows) := by
  induction rows generalizing faults with
  | nil => exact runs_pure ()
  | cons row rows ih => exact runs_bind (runs_execute (faults 0) (fun _ => ()) (write row)) (fun _ => ih _)

theorem Runs.leaves {γ : Type} {view : σ → γ} {ws : List (Write σ)} {x : Command σ ε α} (h : Runs ws x)
    (hws : ∀ w ∈ ws, ∀ s, view (w.2 s) = view s) : Leaves view x := by
  have hfold : ∀ l : List (Write σ), l ⊆ ws → ∀ s, view (l.foldl (fun s w => w.2 s) s) = view s := by
    intro l hl
    induction l with
    | nil => exact fun _ => rfl
    | cons w l ih =>
        intro s
        obtain ⟨hw, hl⟩ := List.cons_subset.mp hl
        exact (ih hl (w.2 s)).trans (hws w hw s)
  constructor
  intro s
  rw [h.state]
  exact hfold _ (List.takeWhile_subset _) s

theorem allOrNothing_iff_written {ws : List (Write σ)} {x : Command σ ε α} (h : Runs ws x) (s : σ) :
    AllOrNothing x s ↔ granted ws ∨ written ws s = s := by
  have hstate := h.state s
  have hsucceeds := h.succeeds s
  cases hx : x s with
  | mk result s' =>
      rw [hx] at hstate hsucceeds
      cases result with
      | error e =>
          have hrefused : ¬ granted ws := fun hg => nomatch hsucceeds.mpr hg
          rw [allOrNothing_of_error hx, ← hstate, or_iff_right hrefused]
      | ok a =>
          have hgranted := hsucceeds.mp ⟨a, rfl⟩
          exact ⟨fun _ => .inl hgranted, fun _ => allOrNothing_of_ok hx⟩

theorem written_cons_none {w : Write σ} (h : w.1 = none) (ws : List (Write σ)) (s : σ) :
    written (w :: ws) s = written ws (w.2 s) := by
  simp only [written, effective, List.takeWhile_cons, h, Option.isNone_none, if_true, List.foldl_cons]

theorem effective_cons_none {w : Write σ} (h : w.1 = none) (ws : List (Write σ)) :
    effective (w :: ws) = w :: effective ws := by
  simp only [effective, List.takeWhile_cons, h, Option.isNone_none, if_true]

theorem effective_cons_some {w : Write σ} (h : w.1 ≠ none) (ws : List (Write σ)) : effective (w :: ws) = [] := by
  have hnone : w.1.isNone = false := Option.isNone_eq_false_iff.mpr (Option.isSome_iff_ne_none.mpr h)
  simp only [effective, List.takeWhile_cons, hnone]
  rfl

theorem written_cons_some {w : Write σ} (h : w.1 ≠ none) (ws : List (Write σ)) (s : σ) :
    written (w :: ws) s = s := by
  rw [written, effective_cons_some h]
  rfl

section Measured

variable (μ : σ → Nat)

theorem written_mono {ws : List (Write σ)} (h : ∀ w ∈ ws, ∀ s, μ s ≤ μ (w.2 s)) (s : σ) :
    μ s ≤ μ (written ws s) := by
  induction ws generalizing s with
  | nil => exact Nat.le_refl _
  | cons w ws ih =>
      have hrest := List.forall_mem_cons.mp h
      by_cases hw : w.1 = none
      · rw [written_cons_none hw]
        exact Nat.le_trans (hrest.1 s) (ih hrest.2 (w.2 s))
      · exact Nat.le_of_eq (congrArg μ (written_cons_some hw ws s)).symm

theorem written_eq_iff_of_insert {ws : List (Write σ)} {w : Write σ} (hfirst : ∀ s, μ s < μ (w.2 s))
    (h : ∀ w ∈ ws, ∀ s, μ s ≤ μ (w.2 s)) (s : σ) : written (w :: ws) s = s ↔ w.1 ≠ none := by
  constructor
  · intro hsame hgranted
    have hgrows := written_mono μ h (w.2 s)
    rw [← written_cons_none hgranted, hsame] at hgrows
    exact absurd (hfirst s) (Nat.not_lt_of_le hgrows)
  · intro hrefused
    exact written_cons_some hrefused ws s

theorem written_le {ws : List (Write σ)} (h : ∀ w ∈ ws, ∀ s, w.2 s = s ∨ μ (w.2 s) < μ s) (s : σ) :
    μ (written ws s) ≤ μ s := by
  induction ws generalizing s with
  | nil => exact Nat.le_refl _
  | cons w ws ih =>
      have hrest := List.forall_mem_cons.mp h
      by_cases hw : w.1 = none
      · rw [written_cons_none hw]
        refine Nat.le_trans (ih hrest.2 (w.2 s)) ?_
        rcases hrest.1 s with hsame | hlt
        · exact Nat.le_of_eq (congrArg μ hsame)
        · exact Nat.le_of_lt hlt
      · exact Nat.le_of_eq (congrArg μ (written_cons_some hw ws s))

/-- A list of statements each of which changes nothing or goes down writes
nothing just when none of the effective ones changes anything. -/
theorem written_eq_iff_of_delete {ws : List (Write σ)}
    (h : ∀ w ∈ ws, ∀ s, w.2 s = s ∨ μ (w.2 s) < μ s) (s : σ) :
    written ws s = s ↔ ∀ w ∈ effective ws, w.2 s = s := by
  induction ws generalizing s with
  | nil => exact ⟨fun _ => nofun, fun _ => rfl⟩
  | cons w ws ih =>
      have hrest := List.forall_mem_cons.mp h
      by_cases hw : w.1 = none
      · rw [written_cons_none hw, effective_cons_none hw, List.forall_mem_cons]
        rcases hrest.1 s with hsame | hlt
        · rw [hsame]
          exact ⟨fun h => ⟨rfl, (ih hrest.2 s).mp h⟩, fun h => (ih hrest.2 s).mpr h.2⟩
        · have hless : μ (written ws (w.2 s)) < μ s := Nat.lt_of_le_of_lt (written_le μ hrest.2 (w.2 s)) hlt
          constructor
          · intro hsame
            exact absurd (congrArg μ hsame) (Nat.ne_of_lt hless)
          · rintro ⟨hsame, -⟩
            exact absurd (congrArg μ hsame) (Nat.ne_of_lt hlt)
      · rw [written_cons_some hw, effective_cons_some hw]
        exact ⟨fun _ => nofun, fun _ => rfl⟩

/-- The statements go up with the first of them and never down. -/
structure Inserts (ws : List (Write σ)) : Prop where
  first : ∀ w ∈ ws.head?, ∀ s, μ s < μ (w.2 s)
  mono : ∀ w ∈ ws, ∀ s, μ s ≤ μ (w.2 s)

variable {μ}

theorem inserts_nil : Inserts μ ([] : List (Write σ)) := ⟨nofun, nofun⟩

theorem inserts_append {ws ws' : List (Write σ)} (h : Inserts μ ws) (h' : Inserts μ ws') :
    Inserts μ (ws ++ ws') := by
  refine ⟨?_, fun w hw => (List.mem_append.mp hw).elim (h.mono w) (h'.mono w)⟩
  cases ws with
  | nil => exact h'.first
  | cons w ws => exact h.first

theorem inserts_append_mono {ws ws' : List (Write σ)} (h : Inserts μ ws) (hne : ws ≠ [])
    (h' : ∀ w ∈ ws', ∀ s, μ s ≤ μ (w.2 s)) : Inserts μ (ws ++ ws') := by
  refine ⟨?_, fun w hw => (List.mem_append.mp hw).elim (h.mono w) (h' w)⟩
  cases ws with
  | nil => exact absurd rfl hne
  | cons w ws => exact h.first

theorem inserts_writes {ρ : Type} {write : ρ → σ → σ} (h : ∀ row s, μ s < μ (write row s))
    (faults : Nat → Option String) (rows : List ρ) : Inserts μ (writes write faults rows) := by
  induction rows generalizing faults with
  | nil => exact inserts_nil
  | cons row rows ih =>
      refine ⟨?_, List.forall_mem_cons.mpr ⟨fun s => Nat.le_of_lt (h row s), (ih _).mono⟩⟩
      intro w hw
      rw [← Option.mem_some.mp hw]
      exact h row

end Measured

/-- The first statement is refused, or none is. -/
def FirstOrNone (faults : List (Option String)) : Prop :=
  (∀ fault ∈ faults.head?, fault ≠ none) ∨ ∀ fault ∈ faults, fault = none

theorem allOrNothing_iff_firstOrNone {μ : σ → Nat} {ws : List (Write σ)} {x : Command σ ε α} (h : Runs ws x)
    (hws : Inserts μ ws) (s : σ) : AllOrNothing x s ↔ FirstOrNone (ws.map Prod.fst) := by
  have hgranted : granted ws ↔ ∀ fault ∈ ws.map Prod.fst, fault = none := by
    rw [granted, List.forall_mem_map]
  rw [allOrNothing_iff_written h, FirstOrNone, ← hgranted, or_comm]
  apply or_congr_left
  cases ws with
  | nil => exact ⟨fun _ => nofun, fun _ => rfl⟩
  | cons w ws =>
      rw [written_eq_iff_of_insert μ (hws.first w rfl) (fun w' hw' => hws.mono w' (List.mem_cons_of_mem _ hw'))]
      simp

theorem writes_faults {ρ : Type} (write : ρ → σ → σ) (faults : Nat → Option String) (rows : List ρ) :
    (writes write faults rows).map Prod.fst = (List.range rows.length).map faults := by
  induction rows generalizing faults with
  | nil => rfl
  | cons row rows ih =>
      rw [writes, List.map_cons, ih, List.length_cons, List.range_succ_eq_map, List.map_cons, List.map_map]
      rfl

theorem mem_writes {ρ : Type} {write : ρ → σ → σ} {faults : Nat → Option String} {rows : List ρ}
    {w : Write σ}
    (h : w ∈ writes write faults rows) : ∃ row ∈ rows, w.2 = write row := by
  induction rows generalizing faults with
  | nil => cases h
  | cons row rows ih =>
      rcases List.mem_cons.mp h with rfl | h
      · exact ⟨row, List.mem_cons_self, rfl⟩
      · obtain ⟨row', hrow', hw⟩ := ih h
        exact ⟨row', List.mem_cons_of_mem _ hrow', hw⟩

theorem writes_eq_nil {ρ : Type} {write : ρ → σ → σ} {faults : Nat → Option String} {rows : List ρ} :
    writes write faults rows = [] ↔ rows = [] := by
  cases rows with
  | nil => exact ⟨fun _ => rfl, fun _ => rfl⟩
  | cons row rows => exact ⟨nofun, nofun⟩

theorem forall_effective_writes {ρ : Type} {write : ρ → σ → σ} {faults : Nat → Option String} {rows : List ρ}
    {P : ρ → Prop} {s : σ} (hP : ∀ row, write row s = s ↔ P row) :
    (∀ w ∈ effective (writes write faults rows), w.2 s = s) ↔
      ∀ j row, rows[j]? = some row → (∀ i ≤ j, faults i = none) → P row := by
  induction rows generalizing faults with
  | nil => exact ⟨fun _ j row hj => (nomatch hj), fun _ => nofun⟩
  | cons row rows ih =>
      by_cases h0 : faults 0 = none
      · rw [writes, effective_cons_none h0, List.forall_mem_cons, hP row, ih]
        constructor
        · rintro ⟨hrow, hrest⟩ j row' hj hfaults
          cases j with
          | zero =>
              obtain rfl := Option.some.inj hj
              exact hrow
          | succ j => exact hrest j row' hj (fun i hi => hfaults (i + 1) (Nat.succ_le_succ hi))
        · intro h
          refine ⟨h 0 row rfl (fun i hi => ?_), fun j row' hj hfaults => h (j + 1) row' hj (fun i hi => ?_)⟩
          · rwa [Nat.le_zero.mp hi]
          · cases i with
            | zero => exact h0
            | succ i => exact hfaults i (Nat.le_of_succ_le_succ hi)
      · rw [writes, effective_cons_some h0]
        exact ⟨fun _ j row' _ hfaults => absurd (hfaults 0 (Nat.zero_le j)) h0, fun _ => nofun⟩

end MLRunX.Atomicity
