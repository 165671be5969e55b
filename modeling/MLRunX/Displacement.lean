import Mathlib.Data.List.Perm.Basic
import MLRunX.Fallible
import MLRunX.Tables

namespace MLRunX.Displacement

open Tables

variable {ρ : Type} {clash : ρ → ρ → Prop} [DecidableRel clash]

def lastClash (clash : ρ → ρ → Prop) [DecidableRel clash] (rows : List ρ) (r : ρ) : Option ρ :=
  rows.reverse.find? (fun row => decide (clash r row))

theorem lastClash_cons (row : ρ) (rows : List ρ) (r : ρ) :
    lastClash clash (row :: rows) r = (lastClash clash rows r).or (if clash r row then some row else none) := by
  rw [lastClash, List.reverse_cons, List.find?_append, ← lastClash]
  by_cases h : clash r row
  · simp [h]
  · simp [h]

theorem mem_of_lastClash {rows : List ρ} {r row : ρ} (h : lastClash clash rows r = some row) :
    row ∈ rows ∧ clash r row :=
  ⟨List.mem_reverse.mp (List.mem_of_find?_eq_some h), by simpa using List.find?_some h⟩

theorem mem_foldl_replace (hrefl : ∀ r, clash r r) (rows : List ρ) (t : Table ρ clash) (r : ρ) :
    r ∈ (rows.foldl Table.replace t).rows ↔
      lastClash clash rows r = some r ∨ lastClash clash rows r = none ∧ r ∈ t.rows := by
  induction rows generalizing t with
  | nil => simp [lastClash]
  | cons row rows ih =>
      rw [List.foldl_cons, ih, lastClash_cons]
      cases lastClash clash rows r with
      | some last => simp
      | none =>
          by_cases hclash : clash r row
          · simp [Table.replace, hclash, eq_comm]
          · have hne : r ≠ row := by
              rintro rfl
              exact hclash (hrefl r)
            simp [Table.replace, hclash, hne]

/-- A row is in place when the first of some rows have been put in place. -/
def Kept (clash : ρ → ρ → Prop) [DecidableRel clash] (count : ℕ) (rows : List ρ) (r : ρ) : Prop :=
  lastClash clash (rows.take count) r = some r

/-- The order of the rows does not matter when no two of them differ for one place,
and too few are left out for a place to be missed. -/
def OrderFree (clash : ρ → ρ → Prop) [DecidableRel clash] (count : ℕ) (rows : List ρ) : Prop :=
  count = 0 ∨ (∀ a ∈ rows, ∀ b ∈ rows, clash a b → a = b) ∧
    ∀ a ∈ rows, (rows.filter (fun b => ¬ clash a b)).length < count

theorem kept_last (hrefl : ∀ r, clash r r) {count : ℕ} {rows : List ρ} {a : ρ} (ha : a ∈ rows)
    (hcount : count ≠ 0)
    (hle : count ≤ rows.length) : ∃ rows', rows'.Perm rows ∧ Kept clash count rows' a := by
  obtain ⟨before, behind, rfl⟩ := List.append_of_mem ha
  have hlength : count - 1 ≤ (before ++ behind).length := by
    rw [List.length_append, List.length_cons] at hle
    rw [List.length_append]
    omega
  have hperm : ((before ++ behind).take (count - 1) ++ a :: (before ++ behind).drop (count - 1)).Perm
      (before ++ a :: behind) := by
    refine List.perm_middle.trans ?_
    rw [List.take_append_drop]
    exact List.perm_middle.symm
  refine ⟨_, hperm, ?_⟩
  have htake : ((before ++ behind).take (count - 1) ++ a :: (before ++ behind).drop (count - 1)).take count =
      (before ++ behind).take (count - 1) ++ [a] := by
    rw [List.take_append, List.length_take, Nat.min_eq_left hlength, List.take_take, Nat.min_eq_right (by omega),
      show count - (count - 1) = 1 by omega, List.take_succ_cons, List.take_zero]
  rw [Kept, htake, lastClash, List.reverse_concat, List.find?_cons_of_pos (by simpa using hrefl a)]

theorem kept_iff_mem {count : ℕ} {rows : List ρ}
    (hone : ∀ a ∈ rows, ∀ b ∈ rows, clash a b → a = b)
    (hfew : ∀ a ∈ rows, (rows.filter (fun b => ¬ clash a b)).length < count)
      (hle : count ≤ rows.length) (r : ρ) :
    Kept clash count rows r ↔ r ∈ rows := by
  constructor
  · intro h
    exact List.mem_of_mem_take (mem_of_lastClash h).1
  · intro hr
    rw [Kept]
    cases hlast : lastClash clash (rows.take count) r with
    | some last =>
        obtain ⟨hmem, hclash⟩ := mem_of_lastClash hlast
        rw [hone r hr last (List.mem_of_mem_take hmem) hclash]
    | none =>
        have hother : ∀ b ∈ rows.take count, ¬ clash r b := by
          intro b hb
          simpa using List.find?_eq_none.mp hlast b (List.mem_reverse.mpr hb)
        have hsub : (rows.take count).Sublist (rows.filter (fun b => ¬ clash r b)) := by
          rw [← List.filter_eq_self.mpr (fun b hb => decide_eq_true (hother b hb))]
          exact (List.take_sublist count rows).filter _
        have hlength := hsub.length_le
        rw [List.length_take, Nat.min_eq_left hle] at hlength
        have hless := hfew r hr
        omega

theorem kept_perm_iff (hrefl : ∀ r, clash r r) (hsymm : ∀ a b, clash a b → clash b a)
    (htrans : ∀ a b c, clash a b → clash b c →
      clash a c) {count : ℕ} {rows : List ρ} (hle : count ≤ rows.length) :
    (∀ rows', rows'.Perm rows → ∀ r, Kept clash count rows' r ↔ Kept clash count rows r) ↔
      OrderFree clash count rows := by
  constructor
  · intro h
    by_cases hcount : count = 0
    · exact .inl hcount
    have hkept : ∀ a ∈ rows, Kept clash count rows a := by
      intro a ha
      obtain ⟨rows', hperm, ha'⟩ := kept_last hrefl ha hcount hle
      exact (h rows' hperm a).mp ha'
    refine .inr ⟨?_, ?_⟩
    · intro a ha b hb hclash
      have hsame : (fun row => decide (clash a row)) = fun row => decide (clash b row) := by
        funext row
        exact decide_eq_decide.mpr ⟨htrans b a row (hsymm a b hclash), htrans a b row hclash⟩
      have hlast : lastClash clash (rows.take count) a = lastClash clash (rows.take count) b := by
        rw [lastClash, lastClash, hsame]
      exact Option.some.inj ((hkept a ha).symm.trans (hlast.trans (hkept b hb)))
    · intro a ha
      by_contra hmany
      rw [Nat.not_lt] at hmany
      have hperm : (rows.filter (fun b => ¬ clash a b) ++ rows.filter (fun b => !decide (¬ clash a b))).Perm rows :=
        List.filter_append_perm _ rows
      have hthere := (h _ hperm a).mpr (hkept a ha)
      rw [Kept, List.take_append_of_le_length hmany] at hthere
      obtain ⟨hmem, hclash⟩ := mem_of_lastClash hthere
      exact of_decide_eq_true (List.mem_filter.mp (List.mem_of_mem_take hmem)).2 hclash
  · rintro (rfl | ⟨hone, hfew⟩) rows' hperm r
    · simp [Kept, lastClash]
    · rw [kept_iff_mem hone hfew hle, kept_iff_mem _ _ (hperm.length_eq ▸ hle), hperm.mem_iff]
      · exact fun a ha b hb => hone a (hperm.mem_iff.mp ha) b (hperm.mem_iff.mp hb)
      · intro a ha
        rw [(hperm.filter _).length_eq]
        exact hfew a (hperm.mem_iff.mp ha)

theorem mapM_perm {ε α β : Type} {f : α → Except ε β} {as as' : List α} {bs : List β} (hperm : as'.Perm as)
    (h : as.mapM f = .ok bs) : ∃ bs', as'.mapM f = .ok bs' ∧ bs'.Perm bs := by
  obtain ⟨bs', hread, hperm'⟩ := List.perm_comp_forall₂ hperm (Fallible.mapM_eq_ok.mp h)
  exact ⟨bs', Fallible.mapM_eq_ok.mpr hread, hperm'⟩

theorem perm_mapM {ε α β : Type} {f : α → Except ε β} {as : List α} {bs bs' : List β} (hperm : bs'.Perm bs)
    (h : as.mapM f = .ok bs) : ∃ as' : List α, as'.mapM f = .ok bs' ∧ as'.Perm as := by
  obtain ⟨as', hread, hperm'⟩ := List.perm_comp_forall₂ hperm (Fallible.mapM_eq_ok.mp h).flip
  exact ⟨as', Fallible.mapM_eq_ok.mpr hread.flip, hperm'⟩

end MLRunX.Displacement
