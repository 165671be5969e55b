import MLRunX.Atomicity

namespace MLRunX.Constraints

open Atomicity Commands Sqlite Statements

variable {σ : Type} (I : σ → Prop) [DecidablePred I] (refusal : String)

/-- A statement that would break the constraints of the database is refused. -/
def enforced (w : Write σ) : Command σ SqliteError Unit := fun s =>
  execute (if I (w.2 s) then w.1 else some refusal) (fun s => .ok ((), w.2 s)) s

def enforcedAll : List (Write σ) → Command σ SqliteError Unit
  | [] => pure ()
  | w :: ws => do
      enforced I refusal w
      enforcedAll ws

/-- The constraints hold behind each of the statements. -/
def Passes : List (Write σ) → σ → Prop
  | [], _ => True
  | w :: ws, s => I (w.2 s) ∧ Passes ws (w.2 s)

/-- What statements make of the tables that are all carried out. -/
def carriedOut (ws : List (Write σ)) (s : σ) : σ := ws.foldl (fun s w => w.2 s) s

theorem carriedOut_append (ws ws' : List (Write σ)) (s : σ) :
    carriedOut (ws ++ ws') s = carriedOut ws' (carriedOut ws s) :=
  List.foldl_append

variable {I refusal} {J : σ → Prop} {w : Write σ} {ws : List (Write σ)} {s s' : σ}

theorem enforced_ok {u : Unit} (h : enforced I refusal w s = (.ok u, s')) :
    w.1 = none ∧ I (w.2 s) ∧ s' = w.2 s := by
  unfold enforced at h
  by_cases hI : I (w.2 s)
  · rw [if_pos hI] at h
    cases hw : w.1 with
    | some text =>
        rw [hw] at h
        cases h
    | none =>
        rw [hw] at h
        exact ⟨rfl, hI, (congrArg Prod.snd h).symm⟩
  · rw [if_neg hI] at h
    cases h

theorem enforced_error {e : SqliteError} (h : enforced I refusal w s = (.error e, s')) : s' = s := by
  simp only [enforced, execute] at h
  split at h
  · cases h
  · exact (congrArg Prod.snd h).symm

theorem keeps_enforced_of (h : ∀ s, J s → I (w.2 s) → J (w.2 s)) : Keeps J (enforced I refusal w) := by
  constructor
  intro s hJ
  cases hrun : enforced I refusal w s with
  | mk answer s' =>
      cases answer with
      | ok u =>
          obtain ⟨-, hI, rfl⟩ := enforced_ok hrun
          exact h s hJ hI
      | error e =>
          obtain rfl := enforced_error hrun
          exact hJ

theorem keeps_enforcedAll_of (h : ∀ w ∈ ws, ∀ s, J s → I (w.2 s) → J (w.2 s)) :
    Keeps J (enforcedAll I refusal ws) := by
  induction ws with
  | nil => exact triple_pure (fun _ hJ => hJ)
  | cons w ws ih =>
      obtain ⟨hw, hws⟩ := List.forall_mem_cons.mp h
      exact triple_bind (keeps_enforced_of hw) (fun _ => ih hws)

omit [DecidablePred I] in
theorem passes_append (ws ws' : List (Write σ)) (s : σ) :
    Passes I (ws ++ ws') s ↔ Passes I ws s ∧ Passes I ws' (carriedOut ws s) := by
  induction ws generalizing s with
  | nil => simp [Passes, carriedOut]
  | cons w ws ih =>
      rw [List.cons_append, Passes, Passes, ih, and_assoc]
      rfl

omit [DecidablePred I] in
theorem Passes.holds (h : Passes I ws s) (hI : I s) : I (carriedOut ws s) := by
  induction ws generalizing s with
  | nil => exact hI
  | cons w ws ih => exact ih h.2 h.1

theorem enforced_passes (hgranted : w.1 = none) (h : I (w.2 s)) : enforced I refusal w s = (.ok (), w.2 s) := by
  rw [enforced, if_pos h, hgranted]
  rfl

theorem enforcedAll_passes (hgranted : granted ws) (h : Passes I ws s) :
    enforcedAll I refusal ws s = (.ok (), carriedOut ws s) := by
  induction ws generalizing s with
  | nil => rfl
  | cons w ws ih =>
      obtain ⟨hw, hws⟩ := List.forall_mem_cons.mp hgranted
      rw [enforcedAll, bind_ok (enforced_passes hw h.1), ih hws h.2]
      rfl

theorem enforcedAll_ok {u : Unit} (h : enforcedAll I refusal ws s = (.ok u, s')) :
    granted ws ∧ s' = written ws s := by
  induction ws generalizing s with
  | nil =>
      obtain ⟨-, rfl⟩ := pure_eq_ok h
      exact ⟨fun _ hw => absurd hw List.not_mem_nil, rfl⟩
  | cons w ws ih =>
      obtain ⟨_, s₁, hfirst, hrest⟩ := bind_eq_ok h
      obtain ⟨hnone, -, rfl⟩ := enforced_ok hfirst
      obtain ⟨hgranted, rfl⟩ := ih hrest
      exact ⟨List.forall_mem_cons.mpr ⟨hnone, hgranted⟩, (written_cons_none hnone ws s).symm⟩

theorem written_granted (h : granted ws) (s : σ) : written ws s = carriedOut ws s := by
  induction ws generalizing s with
  | nil => rfl
  | cons w ws ih =>
      obtain ⟨hw, hws⟩ := List.forall_mem_cons.mp h
      rw [written_cons_none hw, ih hws]
      rfl

end MLRunX.Constraints
