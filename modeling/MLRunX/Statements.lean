import MLRunX.Commands
import MLRunX.Sqlite

namespace MLRunX.Statements

open Commands Sqlite

variable {σ α γ : Type}

def query (fault : Option String) (f : σ → α) : Command σ SqliteError α :=
  fun s => (statement fault (.ok (f s)), s)

def execute (fault : Option String) (f : σ → Sql (α × σ)) : Command σ SqliteError α :=
  fun s => match statement fault (f s) with
    | .ok (a, s') => (.ok a, s')
    | .error e => (.error e, s)

/-- One statement for each row. The rows written before a failure stay written. -/
def executeEach {ρ : Type} (write : ρ → σ → σ) : (faults : Nat → Option String) → List ρ →
    Command σ SqliteError Unit
  | _, [] => pure ()
  | faults, row :: rows => do
      execute (faults 0) (fun s => .ok ((), write row s))
      executeEach write (fun i => faults (i + 1)) rows

variable {fault : Option String} {P E : σ → Prop} {Q : α → σ → Prop} {view : σ → γ}

theorem triple_query {f : σ → α} (h : ∀ s, P s → Q (f s) s) (herr : ∀ s, P s → E s) :
    Triple P (query fault f) Q E := by
  constructor
  intro s hs
  cases fault with
  | none => exact h s hs
  | some text => exact herr s hs

theorem triple_execute {f : σ → Sql (α × σ)} (h : ∀ s a s', P s → f s = .ok (a, s') → Q a s')
    (herr : ∀ s, P s → E s) : Triple P (execute fault f) Q E := by
  constructor
  intro s hs
  simp only [execute]
  split
  · exact h s _ _ hs (statement_eq_ok.mp ‹_›).2
  · exact herr s hs

theorem leaves_query (fault : Option String) (f : σ → α) : Leaves view (query fault f) := ⟨fun _ => rfl⟩

theorem leaves_execute {f : σ → Sql (α × σ)} (h : ∀ s a s', f s = .ok (a, s') → view s' = view s) :
    Leaves view (execute fault f) := by
  constructor
  intro s
  simp only [execute]
  split
  · exact h s _ _ (statement_eq_ok.mp ‹_›).2
  · rfl

theorem query_ok {f : σ → α} {s : σ} {a : α} (h : f s = a) : query none f s = (.ok a, s) := by
  rw [← h]
  rfl

theorem query_eq_ok {f : σ → α} {s s' : σ} {a : α} (h : query fault f s = (.ok a, s')) : a = f s ∧ s' = s := by
  obtain ⟨ha, rfl⟩ := Prod.mk.inj h
  exact ⟨(Except.ok.inj (statement_eq_ok.mp ha).2).symm, rfl⟩

theorem execute_ok {f : σ → Sql (α × σ)} {s s' : σ} {a : α} (h : execute fault f s = (.ok a, s')) :
    f s = .ok (a, s') := by
  simp only [execute] at h
  split at h
  · rename_i hf
    rw [(statement_eq_ok.mp hf).2]
    obtain ⟨ha, rfl⟩ := Prod.mk.inj h
    rw [Except.ok.inj ha]
  · cases h

theorem execute_granted {f : σ → Sql (α × σ)} {s s' : σ} {a : α} (h : execute fault f s = (.ok a, s')) :
    fault = none := by
  simp only [execute] at h
  split at h
  · exact (statement_eq_ok.mp ‹_›).1
  · cases h

theorem execute_error {f : σ → Sql (α × σ)} {s s' : σ} {e : SqliteError}
    (h : execute fault f s = (.error e, s')) :
    s' = s ∧ (fault = none → f s = .error e) := by
  simp only [execute] at h
  split at h
  · cases h
  · rename_i herror
    obtain ⟨he, rfl⟩ := Prod.mk.inj h
    refine ⟨rfl, ?_⟩
    rintro rfl
    rw [statement_none] at herror
    rw [herror, Except.error.inj he]

theorem executeEach_ok {ρ : Type} {write : ρ → σ → σ} {faults : Nat → Option String}
    {rows : List ρ} {s s' : σ}
    {u : Unit} (h : executeEach write faults rows s = (.ok u, s')) :
    s' = rows.foldl (fun s row => write row s) s := by
  induction rows generalizing faults s with
  | nil => exact (congrArg Prod.snd h).symm
  | cons row rows ih =>
      obtain ⟨_, s'', hrow, hrows⟩ := bind_eq_ok h
      rw [List.foldl_cons, ih hrows]
      exact congrArg (rows.foldl _) (congrArg Prod.snd (Except.ok.inj (execute_ok hrow))).symm

theorem executeEach_prefix {ρ : Type} (write : ρ → σ → σ) (faults : Nat → Option String)
    (rows : List ρ) (s : σ) :
    ∃ n, (executeEach write faults rows s).2 = (rows.take n).foldl (fun s row => write row s) s := by
  induction rows generalizing faults s with
  | nil => exact ⟨0, rfl⟩
  | cons row rows ih =>
      cases h0 : faults 0 with
      | some text =>
          refine ⟨0, ?_⟩
          simp [executeEach, bind, execute, h0]
      | none =>
          obtain ⟨n, hn⟩ := ih (fun i => faults (i + 1)) (write row s)
          refine ⟨n + 1, ?_⟩
          rw [List.take_succ_cons, List.foldl_cons, ← hn]
          simp [executeEach, bind, execute, h0]

theorem executeEach_refused {ρ : Type} (write : ρ → σ → σ) {faults : Nat → Option String}
    (h : (faults 0).isSome)
    {rows : List ρ} (hne : rows ≠ []) (s : σ) : ∃ e, executeEach write faults rows s = (.error e, s) := by
  obtain ⟨text, htext⟩ := Option.isSome_iff_exists.mp h
  cases rows with
  | nil => exact absurd rfl hne
  | cons row rows => exact ⟨.database text, by simp only [executeEach, bind, execute, htext, statement_some]⟩

/-- A refused statement has none behind it. -/
theorem executeEach_stops {ρ : Type} (write : ρ → σ → σ) {faults : Nat → Option String} {j : Nat}
    (hj : (faults j).isSome) (rows : List ρ) (s : σ) :
    ∃ n ≤ j, (executeEach write faults rows s).2 = (rows.take n).foldl (fun s row => write row s) s := by
  induction rows generalizing faults j s with
  | nil => exact ⟨0, Nat.zero_le j, rfl⟩
  | cons row rows ih =>
      cases h0 : faults 0 with
      | some text =>
          refine ⟨0, Nat.zero_le j, ?_⟩
          simp [executeEach, bind, execute, h0]
      | none =>
          cases j with
          | zero => simp [h0] at hj
          | succ j =>
              obtain ⟨n, hn, hfold⟩ := @ih (fun i => faults (i + 1)) j hj (write row s)
              refine ⟨n + 1, Nat.succ_le_succ hn, ?_⟩
              rw [List.take_succ_cons, List.foldl_cons, ← hfold]
              simp [executeEach, bind, execute, h0]

theorem moves_execute {R : σ → σ → Prop} (hrefl : ∀ s, R s s) {f : σ → Sql (α × σ)}
    (h : ∀ s a s', f s = .ok (a, s') → R s s') : Moves R (execute fault f) := by
  constructor
  intro s
  simp only [execute]
  split
  · exact h s _ _ (statement_eq_ok.mp ‹_›).2
  · exact hrefl s

theorem moves_executeEach {R : σ → σ → Prop} (hrefl : ∀ s, R s s)
    (htrans : ∀ s t u, R s t → R t u → R s u)
    {ρ : Type} {write : ρ → σ → σ} (faults : Nat → Option String) {rows : List ρ}
    (h : ∀ row ∈ rows, ∀ s, R s (write row s)) : Moves R (executeEach write faults rows) := by
  induction rows generalizing faults with
  | nil => exact moves_pure hrefl ()
  | cons row rows ih =>
      refine moves_bind htrans (moves_execute hrefl ?_)
        (fun _ => ih _ (fun r hr => h r (List.mem_cons_of_mem _ hr)))
      intro s a s' hs
      obtain ⟨-, rfl⟩ := Prod.mk.inj (Except.ok.inj hs)
      exact h row List.mem_cons_self s

theorem keeps_execute {f : σ → Sql (α × σ)} (h : ∀ s a s', P s → f s = .ok (a, s') → P s') :
    Keeps P (execute fault f) :=
  triple_execute h (fun _ hs => hs)

theorem leaves_executeEach {ρ : Type} {write : ρ → σ → σ} (h : ∀ row s, view (write row s) = view s)
    (faults : Nat → Option String) (rows : List ρ) : Leaves view (executeEach write faults rows) := by
  induction rows generalizing faults with
  | nil => exact leaves_pure ()
  | cons row rows ih =>
      apply leaves_bind
      · apply leaves_execute
        intro s a s' hs
        obtain ⟨-, rfl⟩ := Prod.mk.inj (Except.ok.inj hs)
        exact h row s
      · exact fun _ => ih _

theorem keeps_executeEach {ρ : Type} {write : ρ → σ → σ} (faults : Nat → Option String) {rows : List ρ}
    (h : ∀ row ∈ rows, ∀ s, P s → P (write row s)) : Keeps P (executeEach write faults rows) := by
  induction rows generalizing faults with
  | nil => exact triple_pure (fun _ hs => hs)
  | cons row rows ih =>
      refine keeps_bind (keeps_execute ?_) (fun _ => ih _ (fun r hr => h r (List.mem_cons_of_mem _ hr)))
      intro s a s' hs hwrite
      obtain ⟨-, rfl⟩ := Prod.mk.inj (Except.ok.inj hwrite)
      exact h row List.mem_cons_self s hs

theorem completes_execute (f : σ → α × σ) : Completes (execute none (fun s => .ok (f s))) :=
  ⟨fun _ _ => trivial⟩

theorem completes_executeEach {ρ : Type} (write : ρ → σ → σ) {faults : Nat → Option String} {rows : List ρ}
    (h : ∀ i < rows.length, faults i = none) : Completes (executeEach write faults rows) := by
  induction rows generalizing faults with
  | nil => exact completes_pure ()
  | cons row rows ih =>
      refine completes_bind ?_ (fun _ => ih (fun i hi => h (i + 1) (Nat.succ_lt_succ hi)))
      rw [h 0 (Nat.zero_lt_succ _)]
      exact completes_execute _

theorem refines_execute {τ : Type} {part : σ → τ} {result : σ → α} {write : σ → σ} {result' : τ → α}
    {write' : τ → τ} (hresult : ∀ s, result' (part s) = result s)
    (hwrite : ∀ s, write' (part s) = part (write s)) :
    Refines part (execute fault (fun s => .ok (result s, write s)))
      (execute fault (fun t => .ok (result' t, write' t))) := by
  constructor
  intro s
  cases fault with
  | some text => rfl
  | none => exact Prod.ext (congrArg Except.ok (hresult s)) (hwrite s)

theorem refines_executeEach {ρ τ : Type} {part : σ → τ} {write : ρ → σ → σ} {write' : ρ → τ → τ}
    (h : ∀ row s, write' row (part s) = part (write row s)) (faults : Nat → Option String) (rows : List ρ) :
    Refines part (executeEach write faults rows) (executeEach write' faults rows) := by
  induction rows generalizing faults with
  | nil => exact refines_pure ()
  | cons row rows ih => exact refines_bind (refines_execute (fun _ => rfl) (h row)) (fun _ => ih _)

section Performs

variable {τ ω ε ε' β : Type} {ap : ω → τ → τ} {ws ws' : List ω}

/-- A program performs writes on a part of the state: some of the first ones, and all
of them if it succeeds. -/
structure Performs (part : σ → τ) (ap : ω → τ → τ) (ws : List ω) (x : Command σ ε α) : Prop where
  partly : ∀ s, ∃ n, part (x s).2 = (ws.take n).foldl (fun t w => ap w t) (part s)
  wholly : ∀ s a s', x s = (.ok a, s') → part s' = ws.foldl (fun t w => ap w t) (part s)

variable {part : σ → τ} {x : Command σ ε α}

theorem performs_of_leaves (h : Leaves part x) : Performs part ap [] x where
  partly s := ⟨0, h.shows s⟩
  wholly s a s' hx := by
    have hs := h.shows s
    rw [hx] at hs
    exact hs

theorem performs_executeEach {ρ : Type} {write : ρ → σ → σ} {w : ρ → ω}
    (hwrite : ∀ row s, part (write row s) = ap (w row) (part s)) (faults : Nat → Option String) (rows : List ρ) :
    Performs part ap (rows.map w) (executeEach write faults rows) := by
  have hfold : ∀ (rows : List ρ) (s : σ),
      part (rows.foldl (fun s row => write row s) s) = (rows.map w).foldl (fun t w => ap w t) (part s) := by
    intro rows
    induction rows with
    | nil => exact fun _ => rfl
    | cons row rows ih =>
        intro s
        rw [List.foldl_cons, ih, hwrite]
        rfl
  constructor
  · intro s
    obtain ⟨n, hn⟩ := executeEach_prefix write faults rows s
    refine ⟨n, ?_⟩
    rw [hn, hfold, List.map_take]
  · intro s a s' hx
    rw [executeEach_ok hx, hfold]

theorem performs_execute {f : σ → Sql (α × σ)} {w : ω}
    (hwrite : ∀ s a s', f s = .ok (a, s') → part s' = ap w (part s)) :
    Performs part ap [w] (execute fault f) := by
  have hok : ∀ s a s', execute fault f s = (.ok a, s') → part s' = ap w (part s) :=
    fun s a s' hx => hwrite s a s' (execute_ok hx)
  constructor
  · intro s
    cases hx : execute fault f s with
    | mk result s' =>
        cases result with
        | ok a => exact ⟨1, hok s a s' hx⟩
        | error e =>
            refine ⟨0, ?_⟩
            rw [(execute_error hx).1]
            rfl
  · exact hok

/-- What comes last may fail and go unnoticed. -/
theorem Performs.bind_partly (hx : Performs part ap ws x) {f : α → Command σ ε β}
    (hf : ∀ a s, ∃ n, part (f a s).2 = (ws'.take n).foldl (fun t w => ap w t) (part s)) (s : σ) :
    ∃ n, part ((x >>= f) s).2 = ((ws ++ ws').take n).foldl (fun t w => ap w t) (part s) := by
  cases hrun : x s with
  | mk result s' =>
      cases result with
      | ok a =>
          obtain ⟨n, hn⟩ := hf a s'
          refine ⟨ws.length + n, ?_⟩
          rw [bind_ok hrun, hn, hx.wholly s a s' hrun, List.take_length_add_append, List.foldl_append]
      | error e =>
          obtain ⟨n, hn⟩ := hx.partly s
          refine ⟨min n ws.length, ?_⟩
          rw [hrun] at hn
          rw [bind_error hrun, List.take_append_of_le_length (Nat.min_le_right _ _), hn, ← List.take_eq_take_min]

theorem Performs.bind (hx : Performs part ap ws x) {f : α → Command σ ε β}
    (hf : ∀ a, Performs part ap ws' (f a)) :
    Performs part ap (ws ++ ws') (x >>= f) := by
  refine ⟨hx.bind_partly (fun a => (hf a).partly), ?_⟩
  intro s b s'' h
  obtain ⟨a, s', hrun, hrest⟩ := bind_eq_ok h
  rw [(hf a).wholly s' b s'' hrest, hx.wholly s a s' hrun, List.foldl_append]

theorem Performs.mapError {f : ε → ε'} (hx : Performs part ap ws x) :
    Performs part ap ws (Commands.mapError f x) := by
  refine ⟨hx.partly, ?_⟩
  intro s a s' h
  exact hx.wholly s a s' (mapError_eq_ok h)

theorem Performs.zoom {π : Type} {get : π → σ} {set : σ → π → π} (hget : ∀ t s, get (set t s) = t)
    (hx : Performs part ap ws x) : Performs (fun s => part (get s)) ap ws (Commands.zoom get set x) := by
  constructor
  · intro s
    obtain ⟨n, hn⟩ := hx.partly (get s)
    refine ⟨n, ?_⟩
    rw [← hn, Commands.zoom, hget]
  · intro s a s' h
    obtain ⟨t, hrun, rfl⟩ := zoom_eq_ok h
    rw [hget]
    exact hx.wholly _ a t hrun

end Performs

end MLRunX.Statements
