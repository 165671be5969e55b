import Mathlib.Algebra.BigOperators.Group.List.Basic
import Mathlib.Algebra.GroupWithZero.Nat
import Mathlib.Algebra.Order.BigOperators.Group.List
import Mathlib.Data.List.Dedup
import Mathlib.Data.List.Sort

namespace MLRunX.Grouping

variable {ρ κ α : Type} [DecidableEq κ] (le : κ → κ → Prop) [DecidableRel le] (key : ρ → κ)

def groupOf (rows : List ρ) (k : κ) : List ρ := rows.filter (fun r => key r = k)

def sortedKeys (rows : List ρ) : List κ := (rows.map key).dedup.insertionSort le

/-- The rows by their keys, in the order of the keys. -/
def groupBy (rows : List ρ) : List (κ × List ρ) :=
  (sortedKeys le key rows).map (fun k => (k, groupOf key rows k))

/-- A limit keeps the first rows; a negative one keeps all. -/
def limitRows (limit : Int) (rows : List α) : List α :=
  if limit < 0 then rows else rows.take limit.toNat

theorem mem_sortedKeys (rows : List ρ) (k : κ) : k ∈ sortedKeys le key rows ↔ ∃ r ∈ rows, key r = k := by
  rw [sortedKeys, (List.perm_insertionSort _ _).mem_iff, List.mem_dedup, List.mem_map]

theorem nodup_sortedKeys (rows : List ρ) : (sortedKeys le key rows).Nodup :=
  (List.perm_insertionSort _ _).nodup_iff.mpr (List.nodup_dedup _)

theorem length_sortedKeys (rows : List ρ) : (sortedKeys le key rows).length = (rows.map key).dedup.length :=
  (List.perm_insertionSort _ _).length_eq

theorem groupOf_ne_nil {rows : List ρ} {k : κ} (h : ∃ r ∈ rows, key r = k) : groupOf key rows k ≠ [] := by
  obtain ⟨r, hr, hk⟩ := h
  exact List.ne_nil_of_mem (List.mem_filter.mpr ⟨hr, by simpa using hk⟩)

theorem limitRows_map {β : Type} (limit : Int) (rows : List α) (f : α → β) :
    limitRows limit (rows.map f) = (limitRows limit rows).map f := by
  simp only [limitRows]
  split
  · rfl
  · rw [List.map_take]

theorem limitRows_sublist (limit : Int) (rows : List α) : (limitRows limit rows).Sublist rows := by
  simp only [limitRows]
  split
  · exact .refl _
  · exact List.take_sublist _ _

theorem limitRows_of_length_le {limit : Int} {rows : List α} (h : limit < 0 ∨ (rows.length : Int) ≤ limit) :
    limitRows limit rows = rows := by
  simp only [limitRows]
  split
  · rfl
  · exact List.take_of_length_le (by omega)

theorem sum_length_groups {keys : List κ} (hn : keys.Nodup) (rows : List ρ) :
    (keys.map (fun k => (groupOf key rows k).length)).sum = (rows.filter (fun r => key r ∈ keys)).length := by
  induction rows with
  | nil => simp [groupOf]
  | cons r rows ih =>
      have hcount : (keys.map (fun k => (groupOf key (r :: rows) k).length)).sum =
          (keys.map (fun k => (groupOf key rows k).length)).sum + keys.count (key r) := by
        clear hn ih
        induction keys with
        | nil => rfl
        | cons k keys ih =>
            have hk : (groupOf key (r :: rows) k).length =
                (groupOf key rows k).length + if k = key r then 1 else 0 := by
              by_cases h : key r = k <;> simp [groupOf, h, eq_comm (a := k)]
            simp only [List.map_cons, List.sum_cons, List.count_cons, ih, hk, beq_iff_eq]
            omega
      rw [hcount, ih]
      by_cases hr : key r ∈ keys
      · simp [hr, List.count_eq_one_of_mem hn hr]
      · simp [hr, List.count_eq_zero_of_not_mem hr]

theorem mem_of_sum_length {keys : List κ} (hn : keys.Nodup) {rows : List ρ}
    (h : (keys.map (fun k => (groupOf key rows k).length)).sum = rows.length) :
    ∀ r ∈ rows, key r ∈ keys := by
  rw [sum_length_groups key hn, List.length_filter_eq_length_iff] at h
  exact fun r hr => by simpa using h r hr

theorem sum_length_groupBy (rows : List ρ) :
    ((sortedKeys le key rows).map (fun k => (groupOf key rows k).length)).sum = rows.length := by
  rw [sum_length_groups key (nodup_sortedKeys le key rows), List.length_filter_eq_length_iff]
  intro r hr
  simpa using (mem_sortedKeys le key rows (key r)).mpr ⟨r, hr, rfl⟩

theorem perm_groups {keys : List κ} (hn : keys.Nodup) (rows : List ρ) :
    (keys.flatMap (groupOf key rows)).Perm (rows.filter (fun r => key r ∈ keys)) := by
  induction keys with
  | nil => simp
  | cons k keys ih =>
      obtain ⟨hk, hn⟩ := List.nodup_cons.mp hn
      have hfirst : groupOf key rows k =
          (rows.filter (fun r => key r ∈ k :: keys)).filter (fun r => decide (key r = k)) := by
        rw [List.filter_filter, groupOf]
        apply List.filter_congr
        intro r _
        by_cases h : key r = k <;> simp [h]
      have hrest : rows.filter (fun r => key r ∈ keys) =
          (rows.filter (fun r => key r ∈ k :: keys)).filter (fun r => !decide (key r = k)) := by
        rw [List.filter_filter]
        apply List.filter_congr
        intro r _
        by_cases h : key r = k
        · simp [h, hk]
        · simp [h]
      rw [List.flatMap_cons]
      refine ((ih hn).append_left _).trans ?_
      rw [hfirst, hrest]
      exact List.filter_append_perm _ _

theorem sum_groups {γ : Type} [AddCommMonoid γ] (f : ρ → γ) (rows : List ρ) :
    ((sortedKeys le key rows).map (fun k => ((groupOf key rows k).map f).sum)).sum = (rows.map f).sum := by
  have hall : rows.filter (fun r => key r ∈ sortedKeys le key rows) = rows := by
    apply List.filter_eq_self.mpr
    intro r hr
    simpa using (mem_sortedKeys le key rows (key r)).mpr ⟨r, hr, rfl⟩
  have hperm := (perm_groups key (nodup_sortedKeys le key rows) rows).map f
  rw [hall] at hperm
  rw [← hperm.sum_eq, List.map_flatMap, List.flatMap_def, List.sum_flatten, List.map_map]
  rfl

theorem best_congr {best : List α → Option α} {better : α → α → Prop}
    (hbest : ∀ l a, best l = some a ↔ a ∈ l ∧ ∀ b ∈ l, better a b) {l l' : List α}
    (hl : ∀ a, a ∈ l ↔ a ∈ l') : best l = best l' := by
  apply Option.ext
  intro a
  simp only [hbest, hl]

/-- The best of the groups' best values is the best value of all rows. -/
theorem best_groups {best : List α → Option α} {better : α → α → Prop}
    (hbest : ∀ l a, best l = some a ↔ a ∈ l ∧ ∀ b ∈ l, better a b) (hnil : ∀ l, best l = none ↔ l = [])
    (hanti : ∀ a b, better a b → better b a → a = b) (value : ρ → α) (rows : List ρ) (d : α) :
    best ((sortedKeys le key rows).map (fun k => (best ((groupOf key rows k).map value)).getD d)) =
      best (rows.map value) := by
  have hgroup : ∀ k ∈ sortedKeys le key rows, ∃ a, best ((groupOf key rows k).map value) = some a ∧
      a ∈ rows.map value ∧ ∀ r ∈ rows, key r = k → better a (value r) := by
    intro k hk
    have hne := groupOf_ne_nil key ((mem_sortedKeys le key rows k).mp hk)
    cases hb : best ((groupOf key rows k).map value) with
    | none => exact absurd (List.map_eq_nil_iff.mp ((hnil _).mp hb)) hne
    | some a =>
        obtain ⟨hm, hle⟩ := (hbest _ _).mp hb
        refine ⟨a, rfl, ?_, fun r hr hkr =>
          hle _ (List.mem_map_of_mem (List.mem_filter.mpr ⟨hr, by simpa using hkr⟩))⟩
        obtain ⟨r, hr, rfl⟩ := List.mem_map.mp hm
        exact List.mem_map_of_mem (List.mem_filter.mp hr).1
  cases hall : best (rows.map value) with
  | none =>
      have hrows := List.map_eq_nil_iff.mp ((hnil _).mp hall)
      subst hrows
      exact (hnil _).mpr rfl
  | some a =>
      obtain ⟨hm, hle⟩ := (hbest _ _).mp hall
      rw [hbest]
      constructor
      · obtain ⟨r, hr, rfl⟩ := List.mem_map.mp hm
        have hk := (mem_sortedKeys le key rows (key r)).mpr ⟨r, hr, rfl⟩
        obtain ⟨b, hb, hbm, hbr⟩ := hgroup (key r) hk
        refine List.mem_map.mpr ⟨key r, hk, ?_⟩
        rw [hb, Option.getD_some]
        exact hanti _ _ (hbr r hr rfl) (hle b hbm)
      · intro b hb
        obtain ⟨k, hk, rfl⟩ := List.mem_map.mp hb
        obtain ⟨c, hc, hcm, -⟩ := hgroup k hk
        rw [hc, Option.getD_some]
        exact hle c hcm

end MLRunX.Grouping
