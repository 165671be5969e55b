import Mathlib.Data.List.Basic

namespace MLRunX.Restarts

variable {σ ε α : Type} (exec : α → σ → Except ε σ)

/-- Statement by statement, up to the first that is refused. -/
def run : List α → σ → Except ε Unit × σ
  | [], s => (.ok (), s)
  | a :: as, s => match exec a s with
      | .ok s' => run as s'
      | .error e => (.error e, s)

/-- What a start leaves that is cut off after so many statements. -/
def cutOff (as : List α) (n : Nat) (s : σ) : σ := (run exec (as.take n) s).2

def restarts (as : List α) (ns : List Nat) (s : σ) : σ := ns.foldl (fun s n => cutOff exec as n s) s

/-- A statement that has succeeded has nothing left to do, whatever comes after it. -/
structure Settles (Done : α → σ → Prop) : Prop where
  settles : ∀ a s s', exec a s = .ok s' → Done a s'
  idle : ∀ a s, Done a s → exec a s = .ok s
  stays : ∀ a b s s', Done a s → exec b s = .ok s' → Done a s'

variable {exec} {Done : α → σ → Prop} {as bs : List α} {s t : σ}

theorem run_ok {a : α} (h : exec a s = .ok t) : run exec (a :: as) s = run exec as t := by
  change (match exec a s with
    | .ok s' => run exec as s'
    | .error e => (.error e, s)) = _
  rw [h]

theorem run_error {a : α} {e : ε} (h : exec a s = .error e) : run exec (a :: as) s = (.error e, s) := by
  change (match exec a s with
    | .ok s' => run exec as s'
    | .error e => (.error e, s)) = _
  rw [h]

theorem run_append (h : run exec as s = (.ok (), t)) : run exec (as ++ bs) s = run exec bs t := by
  induction as generalizing s with
  | nil => rw [List.nil_append, ← (Prod.mk.inj h).2]
  | cons a as ih =>
      cases hstep : exec a s with
      | ok s' =>
          rw [run_ok hstep] at h
          rw [List.cons_append, run_ok hstep]
          exact ih h
      | error e =>
          rw [run_error hstep] at h
          cases h

variable (exec) in
theorem exists_prefix (as : List α) (s : σ) :
    ∃ front back, as = front ++ back ∧ run exec front s = (.ok (), (run exec as s).2) := by
  induction as generalizing s with
  | nil => exact ⟨[], [], rfl, rfl⟩
  | cons a as ih =>
      cases hstep : exec a s with
      | error e =>
          rw [run_error hstep]
          exact ⟨[], a :: as, rfl, rfl⟩
      | ok s' =>
          obtain ⟨front, back, rfl, hfront⟩ := ih s'
          rw [run_ok hstep]
          exact ⟨a :: front, back, rfl, (run_ok hstep).trans hfront⟩

theorem run_related {R : σ → σ → Prop} (hrefl : ∀ s, R s s) (htrans : ∀ s t u, R s t → R t u → R s u)
    (h : ∀ a s s', exec a s = .ok s' → R s s') (as : List α) (s : σ) : R s (run exec as s).2 := by
  induction as generalizing s with
  | nil => exact hrefl s
  | cons a as ih =>
      cases hstep : exec a s with
      | error e =>
          rw [run_error hstep]
          exact hrefl s
      | ok s' =>
          rw [run_ok hstep]
          exact htrans _ _ _ (h a s s' hstep) (ih s')

theorem restarts_related {R : σ → σ → Prop} (hrefl : ∀ s, R s s) (htrans : ∀ s t u, R s t → R t u → R s u)
    (h : ∀ a s s', exec a s = .ok s' → R s s') (as : List α) (ns : List Nat) (s : σ) :
    R s (restarts exec as ns s) := by
  induction ns generalizing s with
  | nil => exact hrefl s
  | cons n ns ih => exact htrans _ _ _ (run_related hrefl htrans h (as.take n) s) (ih _)

section Settled

variable (hsettles : Settles exec Done)

include hsettles

theorem done_stays (a : α) (bs : List α) (h : Done a s) : Done a (run exec bs s).2 := by
  induction bs generalizing s with
  | nil => exact h
  | cons b bs ih =>
      cases hstep : exec b s with
      | error e =>
          rw [run_error hstep]
          exact h
      | ok s' =>
          rw [run_ok hstep]
          exact ih (hsettles.stays a b s s' h hstep)

theorem done_of_run (h : run exec as s = (.ok (), t)) : ∀ a ∈ as, Done a t := by
  induction as generalizing s with
  | nil => exact fun a ha => absurd ha List.not_mem_nil
  | cons a as ih =>
      cases hstep : exec a s with
      | error e =>
          rw [run_error hstep] at h
          cases h
      | ok s' =>
          rw [run_ok hstep] at h
          intro b hb
          rcases List.mem_cons.mp hb with rfl | hb
          · have hlast : (run exec as s').2 = t := congrArg Prod.snd h
            rw [← hlast]
            exact done_stays hsettles b as (hsettles.settles b s s' hstep)
          · exact ih h b hb

theorem run_of_done (h : ∀ a ∈ as, Done a s) : run exec as s = (.ok (), s) := by
  induction as with
  | nil => rfl
  | cons a as ih =>
      rw [run_ok (hsettles.idle a s (h a List.mem_cons_self))]
      exact ih (fun b hb => h b (List.mem_cons_of_mem _ hb))

theorem run_cutOff (as : List α) (n : Nat) (s : σ) : run exec as (cutOff exec as n s) = run exec as s := by
  obtain ⟨front, back, htake, hfront⟩ := exists_prefix exec (as.take n) s
  have has : as = front ++ (back ++ as.drop n) := by rw [← List.append_assoc, ← htake, List.take_append_drop]
  have hagain : run exec front (cutOff exec as n s) = (.ok (), cutOff exec as n s) :=
    run_of_done hsettles (done_of_run hsettles hfront)
  calc run exec as (cutOff exec as n s)
    _ = run exec (front ++ (back ++ as.drop n)) (cutOff exec as n s) := by rw [← has]
    _ = run exec (back ++ as.drop n) (cutOff exec as n s) := run_append hagain
    _ = run exec (front ++ (back ++ as.drop n)) s := (run_append hfront).symm
    _ = run exec as s := by rw [← has]

theorem run_restarts (as : List α) (ns : List Nat) (s : σ) :
    run exec as (restarts exec as ns s) = run exec as s := by
  induction ns generalizing s with
  | nil => rfl
  | cons n ns ih => exact (ih _).trans (run_cutOff hsettles as n s)

end Settled

end MLRunX.Restarts
