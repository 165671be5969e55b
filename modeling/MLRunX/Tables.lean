import Mathlib.Data.List.Induction
import Mathlib.Data.List.Pairwise

namespace MLRunX.Tables

variable {ρ : Type} {clash : ρ → ρ → Prop}

/-- Rows in the order they were inserted, no two of which agree on a key.
What the keys are is the relation `clash`; a null key clashes with nothing. -/
structure Table (ρ : Type) (clash : ρ → ρ → Prop) where
  rows : List ρ
  apart : rows.Pairwise (fun a b => ¬ clash a b)

def Table.empty : Table ρ clash := ⟨[], .nil⟩

def Table.find (t : Table ρ clash) (p : ρ → Bool) : Option ρ := t.rows.find? p

def Table.select (t : Table ρ clash) (p : ρ → Bool) : List ρ := t.rows.filter p

def Table.deleteWhere (t : Table ρ clash) (p : ρ → Bool) : Table ρ clash where
  rows := t.rows.filter (fun r => !p r)
  apart := t.apart.filter _

/-- An update that gives no two rows a key in common that they had not before. -/
def Table.update (t : Table ρ clash) (f : ρ → ρ) (hf : ∀ a b, clash (f a) (f b) → clash a b) :
    Table ρ clash where
  rows := t.rows.map f
  apart := t.apart.map f (fun a b hab h => hab (hf a b h))

/-- An update of key columns is refused when it would make two rows clash. -/
def Table.tryUpdate [DecidableRel clash] (t : Table ρ clash) (f : ρ → ρ) : Option (Table ρ clash) :=
  if h : (t.rows.map f).Pairwise (fun a b => ¬ clash a b) then some ⟨t.rows.map f, h⟩ else none

/-- An insertion is refused when the row clashes with a stored one. -/
def Table.insert [DecidableRel clash] (t : Table ρ clash) (row : ρ) : Option (Table ρ clash) :=
  if h : ∀ r ∈ t.rows, ¬ clash r row then
    some ⟨t.rows ++ [row], List.pairwise_append.mpr ⟨t.apart, .cons (by simp) .nil, by simpa using h⟩⟩
  else
    none

def Table.replace [DecidableRel clash] (t : Table ρ clash) (row : ρ) : Table ρ clash where
  rows := t.rows.filter (fun r => ¬ clash r row) ++ [row]
  apart := List.pairwise_append.mpr ⟨t.apart.filter _, .cons (by simp) .nil, by simp +contextual⟩

def setWhere (p : ρ → Bool) (g : ρ → ρ) (r : ρ) : ρ := if p r then g r else r

theorem setWhere_clear {κ : Type} (key : ρ → Option κ) (put : Option κ → ρ → ρ)
    (hput : ∀ r, put (key r) r = r)
    (p : κ → Bool) (r : ρ) :
    setWhere (fun r => (key r).any p) (put none) r = put ((key r).filter (fun k => !p k)) r := by
  have hself := hput r
  rw [setWhere]
  cases hkey : key r with
  | none => exact (hkey ▸ hself).symm
  | some k =>
      rw [hkey] at hself
      cases hp : p k with
      | false => simp [Option.filter, hp, hself]
      | true => simp [Option.filter, hp]

theorem setWhere_keeps {κ : Type} (key : ρ → κ) {p : ρ → Bool} {g : ρ → ρ} (hg : ∀ r, key (g r) = key r)
    (r : ρ) : key (setWhere p g r) = key r := by
  simp only [setWhere]
  split
  · exact hg r
  · rfl

@[simp] theorem rows_empty : (Table.empty : Table ρ clash).rows = [] := rfl

@[simp] theorem rows_deleteWhere (t : Table ρ clash) (p : ρ → Bool) :
    (t.deleteWhere p).rows = t.rows.filter (fun r => !p r) := rfl

@[simp] theorem rows_update (t : Table ρ clash) (f : ρ → ρ) (hf : ∀ a b, clash (f a) (f b) → clash a b) :
    (t.update f hf).rows = t.rows.map f := rfl

theorem insert_eq_some [DecidableRel clash] {t t' : Table ρ clash} {row : ρ}
    (h : t.insert row = some t') :
    t'.rows = t.rows ++ [row] ∧ ∀ r ∈ t.rows, ¬ clash r row := by
  unfold Table.insert at h
  split at h
  · rename_i hr
    obtain rfl := Option.some.inj h
    exact ⟨rfl, hr⟩
  · cases h

theorem tryUpdate_eq_some [DecidableRel clash] {t t' : Table ρ clash} {f : ρ → ρ}
    (h : t.tryUpdate f = some t') : t'.rows = t.rows.map f := by
  unfold Table.tryUpdate at h
  split at h
  · obtain rfl := Option.some.inj h
    rfl
  · cases h

theorem insert_eq_none_iff [DecidableRel clash] (t : Table ρ clash) (row : ρ) :
    t.insert row = none ↔ ∃ r ∈ t.rows, clash r row := by
  unfold Table.insert
  split
  · rename_i hr
    simpa using hr
  · rename_i hr
    simpa only [true_iff, not_forall, not_not, exists_prop] using hr

theorem insert_isSome [DecidableRel clash] (t : Table ρ clash) (row : ρ)
    (h : ∀ r ∈ t.rows, ¬ clash r row) : ∃ t', t.insert row = some t' ∧ t'.rows = t.rows ++ [row] :=
  ⟨_, dif_pos h, rfl⟩

theorem find_some {t : Table ρ clash} {p : ρ → Bool} {r : ρ} (h : t.find p = some r) :
    r ∈ t.rows ∧ p r = true :=
  ⟨List.mem_of_find?_eq_some h, List.find?_some h⟩

theorem find_none_iff {t : Table ρ clash} {p : ρ → Bool} :
    t.find p = none ↔ ∀ r ∈ t.rows, p r = false := by
  simp [Table.find]

theorem eq_of_mem {t : Table ρ clash} {p : ρ → Bool}
    (hp : ∀ a b, p a = true → p b = true → clash a b) {a b : ρ} (ha : a ∈ t.rows) (hb : b ∈ t.rows)
    (hpa : p a = true) (hpb : p b = true) : a = b := by
  have hpair : t.rows.Pairwise (fun a b => ¬ (p a = true ∧ p b = true)) :=
    t.apart.imp (fun hab h => hab (hp _ _ h.1 h.2))
  have hsymm : Std.Symm (fun a b => ¬ (p a = true ∧ p b = true)) := ⟨fun _ _ h h' => h h'.symm⟩
  by_contra hne
  exact hpair.forall ha hb hne ⟨hpa, hpb⟩

theorem find_eq_some_iff (t : Table ρ clash) {p : ρ → Bool} {r : ρ}
    (hp : ∀ a b, p a = true → p b = true → clash a b) :
    t.find p = some r ↔ r ∈ t.rows ∧ p r = true := by
  refine ⟨find_some, ?_⟩
  rintro ⟨hr, hpr⟩
  cases hf : t.find p with
  | none => exact absurd (find_none_iff.mp hf r hr) (by simp [hpr])
  | some r' =>
      obtain ⟨hr', hpr'⟩ := find_some hf
      rw [eq_of_mem hp hr' hr hpr' hpr]

theorem find_replace [DecidableRel clash] (t : Table ρ clash) {new : ρ} {p : ρ → Bool}
    (hp : ∀ r, p r = true → (clash r new ↔ p new = true)) :
    (t.replace new).find p = if p new = true then some new else t.find p := by
  rw [Table.find, Table.replace, List.find?_append, List.find?_filter]
  by_cases hnew : p new = true
  · have hnone : t.rows.find? (fun r => decide (decide (¬ clash r new) = true ∧ p r = true)) = none := by
      apply List.find?_eq_none.mpr
      intro r _ hr
      simp only [decide_eq_true_eq] at hr
      exact hr.1 ((hp r hr.2).mpr hnew)
    rw [hnone, if_pos hnew]
    simp [hnew]
  · have hsame : (fun r => decide (decide (¬ clash r new) = true ∧ p r = true)) = p := by
      funext r
      cases hr : p r with
      | false => simp
      | true => simpa using fun hclash => hnew ((hp r hr).mp hclash)
    rw [hsame, if_neg hnew]
    simp [hnew, Table.find]

theorem mem_replace_self [DecidableRel clash] (t : Table ρ clash) (row : ρ) : row ∈ (t.replace row).rows := by
  simp [Table.replace]

theorem mem_replace [DecidableRel clash] {t : Table ρ clash} {row r : ρ} (hr : r ∈ t.rows) (h : ¬ clash r row) :
    r ∈ (t.replace row).rows := by
  simp [Table.replace, hr, h]

theorem mem_foldl_replace_iff [DecidableRel clash] (hsymm : ∀ a b, clash a b → clash b a) (t : Table ρ clash)
    (rows : List ρ) :
    (∀ a ∈ rows, a ∈ (rows.foldl Table.replace t).rows) ↔
      ∀ a ∈ rows, ∀ b ∈ rows, clash a b → a = b := by
  constructor
  · intro h a ha b hb hclash
    have hsym : Std.Symm (fun a b : ρ => ¬ clash a b) := ⟨fun _ _ hab hba => hab (hsymm _ _ hba)⟩
    by_contra hne
    exact (rows.foldl Table.replace t).apart.forall (h a ha) (h b hb) hne hclash
  · intro h
    induction rows using List.reverseRecOn with
    | nil => exact fun _ ha => absurd ha List.not_mem_nil
    | append_singleton rows last ih =>
        intro a ha
        rw [List.foldl_append]
        rcases List.mem_append.mp ha with hrow | hlast
        · have hthere := ih (fun b hb c hc => h b (List.mem_append_left _ hb) c (List.mem_append_left _ hc)) a hrow
          by_cases hclash : clash a last
          · rw [h a ha last List.mem_concat_self hclash]
            exact mem_replace_self _ _
          · exact mem_replace hthere hclash
        · rw [List.mem_singleton.mp hlast]
          exact mem_replace_self _ _

end MLRunX.Tables
