import Mathlib.Data.List.Induction
import MLRunX.Runs

namespace MLRunX.PastTime

open Runs

variable {ε σ ι ω : Type} {starts starts' ends ends' : ε → Prop} {past : List ε} {e : ε}

/-- An event of the past started it, and no later one ended it. -/
def Since (starts ends : ε → Prop) (past : List ε) : Prop :=
  ∃ earlier e later, past = earlier ++ e :: later ∧ starts e ∧ ∀ e' ∈ later, ¬ ends e'

theorem since_nil : ¬ Since starts ends [] := by
  rintro ⟨earlier, e, later, h, -⟩
  simp at h

theorem since_concat : Since starts ends (past ++ [e]) ↔ starts e ∨ Since starts ends past ∧ ¬ ends e := by
  constructor
  · rintro ⟨earlier, first, later, heq, hstarts, hlater⟩
    rcases List.eq_nil_or_concat later with rfl | ⟨later, last, rfl⟩
    · obtain ⟨-, heq⟩ := List.append_inj' heq rfl
      obtain rfl := List.head_eq_of_cons_eq heq
      exact .inl hstarts
    · rw [List.concat_eq_append, ← List.cons_append, ← List.append_assoc] at heq
      rw [List.concat_eq_append] at hlater
      obtain ⟨rfl, hlast⟩ := List.append_inj' heq rfl
      obtain rfl := List.head_eq_of_cons_eq hlast
      exact .inr ⟨⟨earlier, first, later, rfl, hstarts, fun e' he => hlater e' (List.mem_append_left _ he)⟩,
        hlater _ (List.mem_append_right _ List.mem_cons_self)⟩
  · rintro (hstarts | ⟨⟨earlier, first, later, rfl, hstarts, hlater⟩, hends⟩)
    · exact ⟨past, e, [], rfl, hstarts, fun _ h => absurd h List.not_mem_nil⟩
    · refine ⟨earlier, first, later ++ [e], by simp, hstarts, ?_⟩
      intro e' he
      rcases List.mem_append.mp he with he | he
      · exact hlater e' he
      · exact List.mem_singleton.mp he ▸ hends

theorem Since.started (h : Since starts ends past) : ∃ e ∈ past, starts e := by
  obtain ⟨earlier, e, later, rfl, hstarts, -⟩ := h
  exact ⟨e, List.mem_append_right _ List.mem_cons_self, hstarts⟩

theorem Since.weaken (h : Since starts ends past) (hstarts : ∀ e, starts e → starts' e)
    (hends : ∀ e, ends' e → ends e) : Since starts' ends' past := by
  obtain ⟨earlier, e, later, rfl, he, hlater⟩ := h
  exact ⟨earlier, e, later, rfl, hstarts e he, fun e' hmem hend => hlater e' hmem (hends e' hend)⟩

theorem since_exists {κ : Type} {starts : κ → ε → Prop} :
    Since (fun e => ∃ k, starts k e) ends past ↔ ∃ k, Since (starts k) ends past := by
  constructor
  · rintro ⟨earlier, e, later, heq, ⟨k, hk⟩, hlater⟩
    exact ⟨k, earlier, e, later, heq, hk, hlater⟩
  · rintro ⟨k, hk⟩
    exact hk.weaken (fun _ h => ⟨k, h⟩) (fun _ => id)

def told (m : Machine σ ι ω) (s : σ) (is : List ι) : List ω := (history m s is).map Prod.snd

theorem told_concat (m : Machine σ ι ω) (s : σ) (is : List ι) (i : ι) :
    told m s (is ++ [i]) = told m s is ++ [(m (after m s is) i).1] := by
  rw [told, history_append, List.map_append]
  rfl

/-- A condition on the state that no run begins with, and that every step starts, ends or leaves as
it was, holds after a run just when it was started and not ended since. -/
theorem since_told {m : Machine σ ι ω} {holds : σ → Prop} {starts ends : ω → Prop}
    (hstep : ∀ s i, holds (m s i).2 ↔ starts (m s i).1 ∨ holds s ∧ ¬ ends (m s i).1) {s : σ} (hs : ¬ holds s)
    (is : List ι) : holds (after m s is) ↔ Since starts ends (told m s is) := by
  induction is using List.reverseRecOn with
  | nil => exact iff_of_false hs since_nil
  | append_singleton is i ih => rw [after_concat, told_concat, since_concat, hstep, ih]

end MLRunX.PastTime
