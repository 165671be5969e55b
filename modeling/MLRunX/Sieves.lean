import MLRunX.Commands
import MLRunX.ReportedDrops

namespace MLRunX.Sieves

open Commands ReportedDrops

variable {S α ρ : Type} (judge : S → α → Option ρ) (take : S → α → S)

/-- Every item is judged by what was taken before it, and taken unless there is a reason not to. -/
def sieve : S → List α → List (α × Option ρ)
  | _, [] => []
  | s, a :: as => (a, judge s a) :: sieve ((judge s a).elim (take s a) (fun _ => s)) as

def taken : S → List (α × Option ρ) → S
  | s, [] => s
  | s, (a, reason) :: fates => taken (reason.elim (take s a) (fun _ => s)) fates

def lost (fates : List (α × Option ρ)) : List α :=
  fates.filterMap (fun f => if f.2.isNone then none else some f.1)

variable {judge take} {s : S} {as : List α} {fates : List (α × Option ρ)} {a : α} {reason : ρ}

theorem kept_taken : kept ((a, none) :: fates) = a :: kept fates := List.filterMap_cons_some (by simp)

theorem kept_lost : kept ((a, some reason) :: fates) = kept fates := List.filterMap_cons_none (by simp)

theorem lost_taken : lost ((a, (none : Option ρ)) :: fates) = lost fates := List.filterMap_cons_none (by simp)

theorem lost_lost : lost ((a, some reason) :: fates) = a :: lost fates := List.filterMap_cons_some (by simp)

theorem sieve_items : (sieve judge take s as).map Prod.fst = as := by
  induction as generalizing s with
  | nil => rfl
  | cons a as ih => rw [sieve, List.map_cons, ih]

theorem sieve_split {before rest : List (α × Option ρ)} {reason : Option ρ}
    (h : sieve judge take s as = before ++ (a, reason) :: rest) : reason = judge (taken take s before) a := by
  induction before generalizing s as with
  | nil =>
      cases as with
      | nil => cases h
      | cons b as =>
          obtain ⟨rfl, rfl⟩ := Prod.mk.inj (List.cons.inj h).1
          rfl
  | cons f before ih =>
      cases as with
      | nil => cases h
      | cons b as =>
          obtain ⟨rfl, htail⟩ := List.cons.inj h
          exact ih htail

variable {σ ε : Type}

/-- A step takes its item or drops it, as it is judged. -/
structure Sifts (judge : S → α → Option ρ) (take : S → α → S) (sets : σ → S)
    (accepted dropped : σ → List α)
    (f : α → Command σ ε Unit) : Prop where
  takes : ∀ a s u s', f a s = (.ok u, s') → judge (sets s) a = none →
    sets s' = take (sets s) a ∧ accepted s' = accepted s ++ [a] ∧ dropped s' = dropped s
  drops : ∀ a s u s' reason, f a s = (.ok u, s') → judge (sets s) a = some reason →
    sets s' = sets s ∧ accepted s' = accepted s ∧ dropped s' = dropped s ++ [a]

theorem Sifts.forM {sets : σ → S} {accepted dropped : σ → List α} {f : α → Command σ ε Unit}
    (hf : Sifts judge take sets accepted dropped f) {s s' : σ} {u : Unit} (h : as.forM f s = (.ok u, s')) :
    sets s' = taken take (sets s) (sieve judge take (sets s) as) ∧
      accepted s' = accepted s ++ kept (sieve judge take (sets s) as) ∧
      dropped s' = dropped s ++ lost (sieve judge take (sets s) as) := by
  induction as generalizing s with
  | nil =>
      obtain ⟨-, rfl⟩ := pure_eq_ok h
      exact ⟨rfl, (List.append_nil _).symm, (List.append_nil _).symm⟩
  | cons a as ih =>
      obtain ⟨v, s₁, hstep, hrest⟩ := bind_eq_ok h
      obtain ⟨hsets, haccepted, hdropped⟩ := ih hrest
      cases hjudge : judge (sets s) a with
      | none =>
          obtain ⟨hsets₁, haccepted₁, hdropped₁⟩ := hf.takes a s v s₁ hstep hjudge
          rw [hsets₁] at hsets haccepted hdropped
          rw [sieve, hjudge, kept_taken, lost_taken]
          refine ⟨hsets, ?_, ?_⟩
          · rw [haccepted, haccepted₁, List.append_assoc]
            rfl
          · rw [hdropped, hdropped₁]
            rfl
      | some reason =>
          obtain ⟨hsets₁, haccepted₁, hdropped₁⟩ := hf.drops a s v s₁ reason hstep hjudge
          rw [hsets₁] at hsets haccepted hdropped
          rw [sieve, hjudge, kept_lost, lost_lost]
          refine ⟨hsets, ?_, ?_⟩
          · rw [haccepted, haccepted₁]
            rfl
          · rw [hdropped, hdropped₁, List.append_assoc]
            rfl

end MLRunX.Sieves
