import Mathlib.Data.Fintype.Basic
import Mathlib.Data.List.Sort

namespace MLRunX.StableSort

open Std

variable {α β κ : Type}

/-- One list is the other in a new order that leaves the elements of each key
in their order. -/
def Rearranges (key : α → κ) (as bs : List α) : Prop :=
  ∃ σ : Fin as.length ≃ Fin bs.length, (∀ i, bs.get (σ i) = as.get i) ∧
    ∀ i j, i < j → key (as.get i) = key (as.get j) → σ i < σ j

theorem filter_eq_map_finRange (p : α → Bool) (as : List α) :
    as.filter p = ((List.finRange as.length).filter (fun i => p (as.get i))).map as.get := by
  conv_lhs => rw [← List.map_get_finRange as]
  exact List.filter_map ..

theorem Rearranges.filter_eq {key : α → κ} {as bs : List α} (h : Rearranges key as bs) {p : α → Bool}
    (hp : ∀ a b, p a = true → p b = true → key a = key b) : as.filter p = bs.filter p := by
  obtain ⟨σ, hget, hmono⟩ := h
  have hpositions : ((List.finRange as.length).filter (fun i => p (as.get i))).map σ =
      (List.finRange bs.length).filter (fun j => p (bs.get j)) := by
    apply List.Pairwise.eq_of_mem_iff (r := (· < ·))
    · apply List.pairwise_map.2
      apply ((List.sortedLT_finRange as.length).pairwise.filter _).imp_of_mem
      intro i j hi hj hij
      exact hmono i j hij (hp _ _ (List.mem_filter.1 hi).2 (List.mem_filter.1 hj).2)
    · exact (List.sortedLT_finRange bs.length).pairwise.filter _
    · intro j
      obtain ⟨i, rfl⟩ := σ.surjective j
      have hi : p (bs.get (σ i)) = p (as.get i) := congrArg p (hget i)
      simpa using hi.symm
  rw [filter_eq_map_finRange p as, filter_eq_map_finRange p bs, ← hpositions, List.map_map]
  apply List.map_congr_left
  intro i _
  exact (hget i).symm

section Comparison

variable (cmp : α → α → Ordering)

/-- The elements that a comparison cannot tell from the given one. -/
def ties (k : α) (as : List α) : List α := as.filter (fun a => cmp k a = .eq)

variable {cmp}

theorem exists_tie {as : List α} {k : α} {f : α → β} {b : β} (h : b ∈ (ties cmp k as).map f) :
    ∃ a ∈ as, cmp k a = .eq := by
  obtain ⟨a, ha, -⟩ := List.mem_map.1 h
  exact ⟨a, (List.mem_filter.1 ha).1, by simpa using (List.mem_filter.1 ha).2⟩

variable [TransCmp cmp]

theorem le_trans {a b c : α} (hab : cmp a b ≠ .gt) (hbc : cmp b c ≠ .gt) : cmp a c ≠ .gt := by
  simp only [← Ordering.isLE_iff_ne_gt] at hab hbc ⊢
  exact TransCmp.isLE_trans hab hbc

theorem le_total (a b : α) : cmp a b ≠ .gt ∨ cmp b a ≠ .gt := by
  by_cases h : cmp a b = .gt
  · exact .inr (by simp [OrientedCmp.lt_of_gt h])
  · exact .inl h

theorem eq_of_le_of_le {a b : α} (hab : cmp a b ≠ .gt) (hba : cmp b a ≠ .gt) : cmp a b = .eq := by
  cases h : cmp a b with
  | eq => rfl
  | lt => exact absurd (OrientedCmp.gt_of_lt h) hba
  | gt => exact absurd h hab

theorem pairwise_insertionSort (as : List α) :
    (as.insertionSort (fun a b => cmp a b ≠ .gt)).Pairwise (fun a b => cmp a b ≠ .gt) := by
  have : IsTrans α (fun a b => cmp a b ≠ .gt) := ⟨fun _ _ _ => le_trans⟩
  have : Std.Total (fun a b : α => cmp a b ≠ .gt) := ⟨le_total⟩
  exact List.pairwise_insertionSort _ as

theorem ties_orderedInsert (k a : α) (as : List α) :
    ties cmp k (as.orderedInsert (fun a b => cmp a b ≠ .gt) a) = ties cmp k (a :: as) := by
  induction as with
  | nil => rfl
  | cons b as ih =>
      rw [List.orderedInsert_cons]
      split
      · rfl
      · rename_i hgt
        -- only an element that compares smaller is passed, so not one with the same key
        have hapart : ¬ (cmp k a = .eq ∧ cmp k b = .eq) := by
          rintro ⟨ha, hb⟩
          have hab := TransCmp.eq_trans (OrientedCmp.eq_comm.1 ha) hb
          exact hgt (by simp [hab])
        simp only [ties, List.filter_cons] at ih ⊢
        rw [ih]
        by_cases ha : cmp k a = .eq <;> by_cases hb : cmp k b = .eq <;> simp_all

theorem ties_insertionSort (k : α) (as : List α) :
    ties cmp k (as.insertionSort (fun a b => cmp a b ≠ .gt)) = ties cmp k as := by
  induction as with
  | nil => rfl
  | cons a as ih =>
      rw [List.insertionSort_cons, ties_orderedInsert]
      simp only [ties, List.filter_cons] at ih ⊢
      rw [ih]

/-- Two sorted lists agree when they agree on the elements of each key. -/
theorem map_eq_of_ties {as bs : List α} (f : α → β) (has : as.Pairwise (fun a b => cmp a b ≠ .gt))
    (hbs : bs.Pairwise (fun a b => cmp a b ≠ .gt))
    (h : ∀ k, (ties cmp k as).map f = (ties cmp k bs).map f) : as.map f = bs.map f := by
  induction as generalizing bs with
  | nil =>
      cases bs with
      | nil => rfl
      | cons b bs =>
          have := h b
          simp [ties, ReflCmp.compare_self] at this
  | cons a as ih =>
      cases bs with
      | nil =>
          have := h a
          simp [ties, ReflCmp.compare_self] at this
      | cons b bs =>
          have hself : ∀ c : α, cmp c c = .eq := fun _ => ReflCmp.compare_self
          have hhead : ∀ {c d : α} {cs : List α}, (c :: cs).Pairwise (fun a b => cmp a b ≠ .gt) →
              (∃ e ∈ c :: cs, cmp d e = .eq) → cmp c d ≠ .gt := by
            rintro c d cs hcs ⟨e, he, hde⟩
            have hce : cmp c e ≠ .gt := by
              rcases List.mem_cons.1 he with rfl | he
              · simp [hself]
              · exact List.rel_of_pairwise_cons hcs he
            exact le_trans hce (by simp [OrientedCmp.eq_comm.1 hde])
          have hba : cmp b a ≠ .gt := by
            apply hhead hbs (exists_tie (f := f) (b := f a) _)
            rw [← h a]
            simp [ties, hself]
          have hab : cmp a b ≠ .gt := by
            apply hhead has (exists_tie (f := f) (b := f b) _)
            rw [h b]
            simp [ties, hself]
          have heq := eq_of_le_of_le hab hba
          have hfirst := h a
          simp only [ties, List.filter_cons, hself, heq, decide_true, if_true, List.map_cons,
            List.cons.injEq] at hfirst
          rw [List.map_cons, List.map_cons, hfirst.1]
          congr 1
          apply ih (List.Pairwise.of_cons has) (List.Pairwise.of_cons hbs)
          intro k
          have hk := h k
          simp only [ties, List.filter_cons, TransCmp.congr_right heq] at hk ⊢
          split at hk
          · exact (List.cons.inj hk).2
          · exact hk

theorem insertionSort_eq_of_rearranges {key : α → κ} (hkey : ∀ a b, cmp a b = .eq → key a = key b)
    {as bs : List α} (h : Rearranges key as bs) :
    as.insertionSort (fun a b => cmp a b ≠ .gt) = bs.insertionSort (fun a b => cmp a b ≠ .gt) := by
  have hties : ∀ k, ties cmp k as = ties cmp k bs := by
    intro k
    apply h.filter_eq
    intro a b ha hb
    rw [← hkey k a (by simpa using ha), ← hkey k b (by simpa using hb)]
  have hmap : (as.insertionSort (fun a b => cmp a b ≠ .gt)).map id =
      (bs.insertionSort (fun a b => cmp a b ≠ .gt)).map id := by
    apply map_eq_of_ties id (pairwise_insertionSort as) (pairwise_insertionSort bs)
    intro k
    rw [ties_insertionSort, ties_insertionSort, hties]
  simpa using hmap

theorem map_insertionSort_eq_of_perm {f : α → β} (hf : ∀ a b, cmp a b = .eq → f a = f b) {as bs : List α}
    (h : as.Perm bs) :
    (as.insertionSort (fun a b => cmp a b ≠ .gt)).map f = (bs.insertionSort (fun a b => cmp a b ≠ .gt)).map f := by
  apply map_eq_of_ties f (pairwise_insertionSort as) (pairwise_insertionSort bs)
  intro k
  rw [ties_insertionSort, ties_insertionSort]
  have hsame : ∀ cs : List α, (ties cmp k cs).map f = List.replicate (ties cmp k cs).length (f k) := by
    intro cs
    apply List.eq_replicate_iff.2 ⟨by simp, _⟩
    intro b hb
    obtain ⟨c, hc, rfl⟩ := List.mem_map.1 hb
    exact (hf k c (by simpa using (List.mem_filter.1 hc).2)).symm
  rw [hsame as, hsame bs]
  congr 1
  exact (h.filter _).length_eq

end Comparison

end MLRunX.StableSort
