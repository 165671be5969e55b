import Mathlib.Data.List.Basic
import Mathlib.Tactic.SplitIfs

namespace MLRunX.ReportedDrops

variable {α ρ β : Type}

/-- The items that are not dropped, where each comes with why it is dropped, if it is. -/
def kept (fates : List (α × Option ρ)) : List α := fates.filterMap (fun f => if f.2.isNone then some f.1 else none)

def drops (fates : List (α × Option ρ)) : List ρ := fates.filterMap Prod.snd

variable (text : α → ρ → β) (quiet : ρ → Bool)

/-- What is said about the dropped items. Of a quiet reason nothing is said once something was dropped. -/
def reports : Bool → List (α × Option ρ) → List β
  | _, [] => []
  | dropped, (_, none) :: fates => reports dropped fates
  | dropped, (a, some r) :: fates => (if dropped && quiet r then [] else [text a r]) ++ reports true fates

structure Telling : Prop where
  same : ∀ {r}, quiet r = true → ∀ a b, text a r = text b r
  own : ∀ {r}, quiet r = true → ∀ {a b s}, text a r = text b s → s = r

variable {text quiet} {fates : List (α × Option ρ)} {a : α} {r : ρ} {dropped : Bool}

theorem mem_kept_iff : a ∈ kept fates ↔ (a, none) ∈ fates := by
  simp only [kept, List.mem_filterMap, Option.isNone_iff_eq_none]
  constructor
  · rintro ⟨⟨b, r⟩, hmem, heq⟩
    split_ifs at heq with hnone
    obtain rfl := Option.some.inj heq
    rwa [← hnone]
  · intro h
    exact ⟨_, h, by simp⟩

theorem reports_loud (hr : quiet r = false) (h : (a, some r) ∈ fates) :
    text a r ∈ reports text quiet dropped fates := by
  induction fates generalizing dropped with
  | nil => cases h
  | cons f fates ih =>
      rcases f with ⟨b, _ | s⟩
      · rcases List.mem_cons.1 h with heq | hmem
        · cases heq
        · exact ih hmem
      · rw [reports]
        rcases List.mem_cons.1 h with heq | hmem
        · obtain ⟨rfl, rfl⟩ : a = b ∧ r = s := by simpa using heq
          rw [hr, Bool.and_false, if_neg Bool.false_ne_true]
          exact List.mem_cons_self
        · exact List.mem_append_right _ (ih hmem)

theorem of_mem_reports {b : β} (h : b ∈ reports text quiet dropped fates) :
    ∃ a r, (a, some r) ∈ fates ∧ b = text a r := by
  induction fates generalizing dropped with
  | nil => cases h
  | cons f fates ih =>
      rcases f with ⟨a, _ | r⟩
      · obtain ⟨a', r, hmem, rfl⟩ := ih h
        exact ⟨a', r, List.mem_cons_of_mem _ hmem, rfl⟩
      · rw [reports] at h
        rcases List.mem_append.1 h with hhead | htail
        · split_ifs at hhead
          · cases hhead
          · exact ⟨a, r, List.mem_cons_self, List.mem_singleton.1 hhead⟩
        · obtain ⟨a', r', hmem, rfl⟩ := ih htail
          exact ⟨a', r', List.mem_cons_of_mem _ hmem, rfl⟩

theorem not_reported (htell : Telling text quiet) (hr : quiet r = true) :
    text a r ∉ reports text quiet true fates := by
  induction fates with
  | nil => exact List.not_mem_nil
  | cons f fates ih =>
      rcases f with ⟨b, _ | s⟩
      · exact ih
      · rw [reports, Bool.true_and]
        intro h
        rcases List.mem_append.1 h with hhead | htail
        · cases hs : quiet s with
          | true =>
              rw [hs, if_pos rfl] at hhead
              cases hhead
          | false =>
              rw [hs, if_neg Bool.false_ne_true, List.mem_singleton] at hhead
              obtain rfl := htell.own hr hhead
              rw [hs] at hr
              cases hr
        · exact ih htail

theorem reported_quiet_iff (htell : Telling text quiet) (hr : quiet r = true) :
    text a r ∈ reports text quiet false fates ↔ (drops fates).head? = some r := by
  induction fates with
  | nil => simp [reports, drops]
  | cons f fates ih =>
      rcases f with ⟨b, _ | s⟩
      · exact ih
      · change text a r ∈ text b s :: reports text quiet true fates ↔ some s = some r
        rw [List.mem_cons, or_iff_left (not_reported htell hr), Option.some.injEq]
        constructor
        · exact htell.own hr
        · rintro rfl
          exact htell.same hr a b

theorem all_reported_iff (htell : Telling text quiet) (others : β → Prop)
    (hothers : ∀ a r, quiet r = true → ¬ others (text a r)) :
    (∀ a r, (a, some r) ∈ fates → text a r ∈ reports text quiet false fates ∨ others (text a r)) ↔
      ∀ r ∈ drops fates, quiet r = true → (drops fates).head? = some r := by
  have hmem : ∀ r, r ∈ drops fates ↔ ∃ a, (a, some r) ∈ fates := by
    intro r
    simp [drops, List.mem_filterMap]
  constructor
  · intro h r hdrop hr
    obtain ⟨a, hfate⟩ := (hmem r).1 hdrop
    exact (reported_quiet_iff htell hr).1 ((h a r hfate).resolve_right (hothers a r hr))
  · intro h a r hfate
    cases hr : quiet r with
    | true => exact .inl ((reported_quiet_iff htell hr).2 (h r ((hmem r).2 ⟨a, hfate⟩) hr))
    | false => exact .inl (reports_loud hr hfate)

end MLRunX.ReportedDrops
