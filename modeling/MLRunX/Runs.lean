import Mathlib.Data.List.Basic

namespace MLRunX.Runs

variable {σ ι ω : Type}

/-- A machine answers an input and moves on. Whatever the environment decides
(failures, generated names, the time) is part of the input. -/
abbrev Machine (σ ι ω : Type) := σ → ι → ω × σ

def after (m : Machine σ ι ω) (s : σ) (is : List ι) : σ := is.foldl (fun s i => (m s i).2) s

def history (m : Machine σ ι ω) : σ → List ι → List (ι × ω)
  | _, [] => []
  | s, i :: is => (i, (m s i).1) :: history m (m s i).2 is

/-- Every input of a run meets the guard, which sees the past and the state
the input is read in. -/
def Guarded (m : Machine σ ι ω) (G : List (ι × ω) → σ → ι → Prop) :
    List (ι × ω) → σ → List ι → Prop
  | _, _, [] => True
  | past, s, i :: is => G past s i ∧ Guarded m G (past ++ [(i, (m s i).1)]) (m s i).2 is

instance Guarded.decidable (m : Machine σ ι ω) (G : List (ι × ω) → σ → ι → Prop)
    [∀ past s i, Decidable (G past s i)] :
    (past : List (ι × ω)) → (s : σ) → (is : List ι) → Decidable (Guarded m G past s is)
  | _, _, [] => .isTrue trivial
  | past, s, i :: is =>
      have := Guarded.decidable m G (past ++ [(i, (m s i).1)]) (m s i).2 is
      inferInstanceAs (Decidable (G past s i ∧ Guarded m G (past ++ [(i, (m s i).1)]) (m s i).2 is))

@[simp] theorem after_nil (m : Machine σ ι ω) (s : σ) : after m s [] = s := rfl

@[simp] theorem after_cons (m : Machine σ ι ω) (s : σ) (i : ι) (is : List ι) :
    after m s (i :: is) = after m (m s i).2 is := rfl

theorem after_append (m : Machine σ ι ω) (s : σ) (is js : List ι) :
    after m s (is ++ js) = after m (after m s is) js := by
  simp [after, List.foldl_append]

theorem after_concat (m : Machine σ ι ω) (s : σ) (is : List ι) (i : ι) :
    after m s (is ++ [i]) = (m (after m s is) i).2 := by
  simp [after]

theorem history_append (m : Machine σ ι ω) (s : σ) (is js : List ι) :
    history m s (is ++ js) = history m s is ++ history m (after m s is) js := by
  induction is generalizing s with
  | nil => rfl
  | cons i is ih => simp [history, ih]

theorem mem_history {m : Machine σ ι ω} {s : σ} {is : List ι} {e : ι × ω} (h : e ∈ history m s is) :
    ∃ before later, is = before ++ e.1 :: later ∧ (m (after m s before) e.1).1 = e.2 := by
  induction is generalizing s with
  | nil => exact absurd h List.not_mem_nil
  | cons i is ih =>
      rcases List.mem_cons.mp h with rfl | h
      · exact ⟨[], is, rfl, rfl⟩
      · obtain ⟨before, later, rfl, hout⟩ := ih h
        exact ⟨i :: before, later, rfl, hout⟩

theorem guarded_append {m : Machine σ ι ω} {G : List (ι × ω) → σ → ι → Prop}
    (past : List (ι × ω)) (s : σ) (is js : List ι) :
    Guarded m G past s (is ++ js) ↔
      Guarded m G past s is ∧ Guarded m G (past ++ history m s is) (after m s is) js := by
  induction is generalizing past s with
  | nil => simp [Guarded, history]
  | cons i is ih => simp [Guarded, history, ih, and_assoc]

theorem invariant_history {m : Machine σ ι ω} {G : List (ι × ω) → σ → ι → Prop}
    (Inv : List (ι × ω) → σ → Prop)
    (hstep : ∀ past s i, Inv past s → G past s i → Inv (past ++ [(i, (m s i).1)]) (m s i).2)
    (past : List (ι × ω)) (s : σ) (is : List ι) (hs : Inv past s) (hg : Guarded m G past s is) :
    Inv (past ++ history m s is) (after m s is) := by
  induction is generalizing past s with
  | nil => simpa [history] using hs
  | cons i is ih =>
      have h := ih (past ++ [(i, (m s i).1)]) (m s i).2 (hstep past s i hs hg.1) hg.2
      simpa [history] using h

theorem guarded_of_invariant {m : Machine σ ι ω} {G H : List (ι × ω) → σ → ι → Prop}
    (Inv : List (ι × ω) → σ → Prop)
    (hstep : ∀ past s i, Inv past s → G past s i → Inv (past ++ [(i, (m s i).1)]) (m s i).2)
    (hmeets : ∀ past s i, Inv past s → G past s i → H past s i)
    (past : List (ι × ω)) (s : σ) (is : List ι) (hs : Inv past s) (hg : Guarded m G past s is) :
    Guarded m H past s is := by
  induction is generalizing past s with
  | nil => trivial
  | cons i is ih => exact ⟨hmeets past s i hs hg.1, ih _ _ (hstep past s i hs hg.1) hg.2⟩

theorem guarded_true (m : Machine σ ι ω) (past : List (ι × ω)) (s : σ) (is : List ι) :
    Guarded m (fun _ _ _ => True) past s is := by
  induction is generalizing past s with
  | nil => trivial
  | cons i is ih => exact ⟨trivial, ih _ _⟩

theorem guarded_congr {m : Machine σ ι ω} {A G H : List (ι × ω) → σ → ι → Prop}
    (h : ∀ past s i, A past s i → (G past s i ↔ H past s i)) (past : List (ι × ω)) (s : σ) (is : List ι)
    (hA : Guarded m A past s is) : Guarded m G past s is ↔ Guarded m H past s is := by
  induction is generalizing past s with
  | nil => exact Iff.rfl
  | cons i is ih => exact and_congr (h past s i hA.1) (ih _ _ hA.2)

theorem guarded_and {m : Machine σ ι ω} {G H : List (ι × ω) → σ → ι → Prop}
    (past : List (ι × ω)) (s : σ)
    (is : List ι) :
    Guarded m (fun past s i => G past s i ∧ H past s i) past s is ↔ Guarded m G past s is ∧
      Guarded m H past s is := by
  induction is generalizing past s with
  | nil => simp [Guarded]
  | cons i is ih =>
      simp only [Guarded, ih]
      exact and_and_and_comm

theorem forall_prefix_iff_guarded {m : Machine σ ι ω} {A G : List (ι × ω) → σ → ι → Prop}
    {P : σ → Prop}
    (hstep : ∀ past s i, P s → A past s i → (P (m s i).2 ↔ G past s i)) (past : List (ι × ω))
      {s : σ} (hs : P s)
    (is : List ι) (hA : Guarded m A past s is) :
    (∀ before, before <+: is → P (after m s before)) ↔ Guarded m G past s is := by
  induction is generalizing past s with
  | nil => exact ⟨fun _ => trivial, fun _ before h => List.prefix_nil.mp h ▸ hs⟩
  | cons i is ih =>
      constructor
      · intro h
        have hnext : P (m s i).2 := h [i] (List.cons_prefix_cons.mpr ⟨rfl, List.nil_prefix⟩)
        refine ⟨(hstep past s i hs hA.1).mp hnext, (ih _ hnext hA.2).mp (fun before hbefore => ?_)⟩
        exact h (i :: before) (List.cons_prefix_cons.mpr ⟨rfl, hbefore⟩)
      · rintro ⟨hguard, hrest⟩ before hbefore
        cases before with
        | nil => exact hs
        | cons j before =>
            obtain ⟨rfl, htail⟩ := List.cons_prefix_cons.mp hbefore
            exact (ih _ ((hstep past s j hs hA.1).mpr hguard) hA.2).mpr hrest before htail

/-- A value with the property `T` that is read off the state stays, and every
input from then on meets `R`. -/
def Absorbs {ν : Type} (m : Machine σ ι ω) (view : σ → Option ν) (T : ν → Prop)
    (R : σ → ι → Prop) (s : σ)
    (is : List ι) : Prop :=
  ∀ before later, before ++ later <+: is → ∀ v, view (after m s before) = some v → T v →
    view (after m s (before ++ later)) = some v ∧ Guarded m (fun _ => R) [] (after m s before) later

/-- An input keeps the value if it has the property, and meets `R` then. -/
def StepAbsorbs {ν : Type} (m : Machine σ ι ω) (view : σ → Option ν) (T : ν → Prop)
    (R : σ → ι → Prop) (s : σ)
    (i : ι) : Prop :=
  ∀ v, view s = some v → T v → view (m s i).2 = some v ∧ R s i

section Absorbs

variable {ν : Type} {m : Machine σ ι ω} {view : σ → Option ν} {T : ν → Prop} {R : σ → ι → Prop}

theorem guarded_past {G : σ → ι → Prop} (past past' : List (ι × ω)) (s : σ) (is : List ι) :
    Guarded m (fun _ => G) past s is ↔ Guarded m (fun _ => G) past' s is := by
  induction is generalizing past past' s with
  | nil => exact Iff.rfl
  | cons i is ih => exact and_congr Iff.rfl (ih _ _ _)

theorem absorbed {v : ν} (hT : T v) (past : List (ι × ω)) (s : σ) (is : List ι)
    (hg : Guarded m (fun _ => StepAbsorbs m view T R) past s is) (hv : view s = some v) :
    view (after m s is) = some v ∧ Guarded m (fun _ => R) past s is := by
  induction is generalizing past s with
  | nil => exact ⟨hv, trivial⟩
  | cons i is ih =>
      obtain ⟨hnext, hR⟩ := hg.1 v hv hT
      obtain ⟨hlast, hrest⟩ := ih _ _ hg.2 hnext
      exact ⟨hlast, hR, hrest⟩

theorem absorbs_iff (past : List (ι × ω)) (s : σ) (is : List ι) :
    Absorbs m view T R s is ↔ Guarded m (fun _ => StepAbsorbs m view T R) past s is := by
  constructor
  · intro h
    induction is generalizing past s with
    | nil => trivial
    | cons i is ih =>
        refine ⟨fun v hv hT => ?_, ih _ _ (fun before later hprefix => ?_)⟩
        · obtain ⟨hlast, hR⟩ := h [] [i] (List.cons_prefix_cons.mpr ⟨rfl, List.nil_prefix⟩) v hv hT
          exact ⟨hlast, hR.1⟩
        · exact h (i :: before) later (List.cons_prefix_cons.mpr ⟨rfl, hprefix⟩)
  · rintro h before later ⟨rest, rfl⟩ v hv hT
    rw [List.append_assoc, guarded_append, guarded_append] at h
    obtain ⟨hlast, hR⟩ := absorbed hT _ _ _ h.2.1 hv
    exact ⟨by rwa [after_append], (guarded_past _ _ _ _).mp hR⟩

end Absorbs

end MLRunX.Runs
