import Mathlib.Logic.Function.Basic
import MLRunX.Tables

namespace MLRunX.KeyedTables

open Tables

variable {ρ κ : Type} [DecidableEq κ] {clash : ρ → ρ → Prop} (key : ρ → κ)

/-- A table seen as a partial function of a key. -/
def lookup (t : Table ρ clash) (k : κ) : Option ρ := t.find (fun r => decide (key r = k))

section Upsert

variable [DecidableRel clash]

/-- An insertion that becomes an update of the row that has the key already. Another
row that clashes with the result refuses either. -/
def upsert (t : Table ρ clash) (new : ρ) (renew : ρ → ρ) : Option (Table ρ clash) :=
  match lookup key t (key new) with
  | some _ => t.tryUpdate (setWhere (fun r => decide (key r = key new)) renew)
  | none => t.insert new

def written (t : Table ρ clash) (new : ρ) (renew : ρ → ρ) : ρ := ((lookup key t (key new)).map renew).getD new

end Upsert

variable {key} {t t' : Table ρ clash} {k : κ} {r new : ρ} {renew : ρ → ρ}

theorem lookup_eq_none_iff : lookup key t k = none ↔ ∀ r ∈ t.rows, key r ≠ k := by
  rw [lookup, find_none_iff]
  simp only [decide_eq_false_iff_not, ne_eq]

variable (key) in
theorem lookup_deleteWhere (t : Table ρ clash) (q : κ → Bool) (k : κ) :
    lookup key (t.deleteWhere (fun r => q (key r))) k = if q k then none else lookup key t k := by
  rw [lookup, Table.find, rows_deleteWhere, List.find?_filter]
  split
  · rename_i hq
    apply List.find?_eq_none.mpr
    intro r _ hr
    simp only [Bool.not_eq_true', decide_eq_true_eq] at hr
    rw [hr.2, hq] at hr
    exact absurd hr.1 (by simp)
  · rename_i hq
    rw [lookup, Table.find]
    congr 1
    funext r
    by_cases hr : key r = k
    · simp [hr, hq]
    · simp [hr]

section Keys

variable (hkey : ∀ a b : ρ, key a = key b → clash a b)

include hkey

theorem lookup_eq_some_iff : lookup key t k = some r ↔ r ∈ t.rows ∧ key r = k := by
  rw [lookup, find_eq_some_iff t (fun a b ha hb =>
    hkey a b ((of_decide_eq_true ha).trans (of_decide_eq_true hb).symm)), decide_eq_true_eq]

theorem eq_of_key {a b : ρ} (ha : a ∈ t.rows) (hb : b ∈ t.rows) (h : key a = key b) : a = b :=
  Option.some.inj (((lookup_eq_some_iff hkey).mpr ⟨ha, rfl⟩).symm.trans
    ((lookup_eq_some_iff hkey).mpr ⟨hb, h.symm⟩))

theorem pairwise_setWhere_iff (hsymm : ∀ a b, clash a b → clash b a) {old : ρ} (hold : old ∈ t.rows)
    (renew : ρ → ρ) :
    (t.rows.map (setWhere (fun r => decide (key r = key old)) renew)).Pairwise (fun a b => ¬ clash a b) ↔
      ∀ r ∈ t.rows, key r ≠ key old → ¬ clash r (renew old) := by
  rw [List.pairwise_map]
  constructor
  · intro h r hr hne
    have hsym : Std.Symm (fun a b : ρ => ¬ clash (setWhere (fun r => decide (key r = key old)) renew a)
        (setWhere (fun r => decide (key r = key old)) renew b)) := ⟨fun _ _ hab hba => hab (hsymm _ _ hba)⟩
    have hapart := h.forall hr hold (fun heq => hne (congrArg key heq))
    simpa [setWhere, hne] using hapart
  · intro h
    apply t.apart.imp_of_mem
    intro a b ha hb hab
    by_cases hka : key a = key old <;> by_cases hkb : key b = key old
    · exact absurd (hkey a b (hka.trans hkb.symm)) hab
    · obtain rfl := eq_of_key hkey ha hold hka
      simp only [setWhere, hkb, decide_true, decide_false, if_true]
      exact fun hclash => h b hb hkb (hsymm _ _ hclash)
    · obtain rfl := eq_of_key hkey hb hold hkb
      simp only [setWhere, hka, decide_true, decide_false, if_true]
      exact h a ha hka
    · simpa [setWhere, hka, hkb] using hab

variable [DecidableRel clash]

theorem upsert_eq_none_iff (hsymm : ∀ a b, clash a b → clash b a) :
    upsert key t new renew = none ↔ ∃ r ∈ t.rows, key r ≠ key new ∧ clash r (written key t new renew) := by
  rw [upsert, written]
  cases hold : lookup key t (key new) with
  | none =>
      have hfree := lookup_eq_none_iff.mp hold
      simp only [insert_eq_none_iff, Option.map_none, Option.getD_none]
      exact ⟨fun ⟨r, hr, h⟩ => ⟨r, hr, hfree r hr, h⟩, fun ⟨r, hr, _, h⟩ => ⟨r, hr, h⟩⟩
  | some old =>
      obtain ⟨hmem, hk⟩ := (lookup_eq_some_iff hkey).mp hold
      have hiff := pairwise_setWhere_iff hkey hsymm hmem renew
      rw [hk] at hiff
      simp only [Option.map_some, Option.getD_some, Table.tryUpdate, dite_eq_right_iff, reduceCtorEq, imp_false]
      rw [hiff]
      simp only [not_forall, not_not, exists_prop]

theorem mem_upsert_iff (h : upsert key t new renew = some t') :
    r ∈ t'.rows ↔ (r ∈ t.rows ∧ key r ≠ key new) ∨ r = written key t new renew := by
  rw [upsert] at h
  rw [written]
  cases hold : lookup key t (key new) with
  | none =>
      rw [hold] at h
      rw [(insert_eq_some h).1, List.mem_append, List.mem_singleton]
      simp only [Option.map_none, Option.getD_none]
      exact or_congr_left ⟨fun hr => ⟨hr, lookup_eq_none_iff.mp hold r hr⟩, And.left⟩
  | some old =>
      rw [hold] at h
      obtain ⟨hmem, hk⟩ := (lookup_eq_some_iff hkey).mp hold
      rw [tryUpdate_eq_some h, List.mem_map]
      simp only [Option.map_some, Option.getD_some]
      constructor
      · rintro ⟨a, ha, rfl⟩
        by_cases hka : key a = key new
        · obtain rfl := eq_of_key hkey ha hmem (hka.trans hk.symm)
          exact .inr (by simp [setWhere, hka])
        · exact .inl (by simpa [setWhere, hka] using ha)
      · rintro (⟨hr, hne⟩ | rfl)
        · exact ⟨r, hr, by simp [setWhere, hne]⟩
        · exact ⟨old, hmem, by simp [setWhere, hk]⟩

omit [DecidableRel clash] in
theorem key_written (t : Table ρ clash) (new : ρ) (hrenew : ∀ r, key (renew r) = key r) :
    key (written key t new renew) = key new := by
  rw [written]
  cases hold : lookup key t (key new) with
  | none => rfl
  | some old => exact (hrenew old).trans ((lookup_eq_some_iff hkey).mp hold).2

theorem lookup_upsert (hrenew : ∀ r, key (renew r) = key r) (h : upsert key t new renew = some t') :
    lookup key t' = Function.update (lookup key t) (key new) (some (written key t new renew)) := by
  have hwritten := key_written hkey t new hrenew
  funext k
  apply Option.ext
  intro r
  rw [lookup_eq_some_iff hkey, mem_upsert_iff hkey h]
  by_cases hk : k = key new
  · subst hk
    rw [Function.update_self, Option.some_inj]
    constructor
    · rintro ⟨⟨_, hne⟩ | rfl, hr⟩
      · exact absurd hr hne
      · rfl
    · rintro rfl
      exact ⟨.inr rfl, hwritten⟩
  · rw [Function.update_of_ne hk, lookup_eq_some_iff hkey]
    constructor
    · rintro ⟨⟨hr, _⟩ | rfl, hrk⟩
      · exact ⟨hr, hrk⟩
      · exact absurd (hrk.symm.trans hwritten) hk
    · rintro ⟨hr, rfl⟩
      exact ⟨.inl ⟨hr, hk⟩, rfl⟩

end Keys

end MLRunX.KeyedTables
