import Mathlib.Data.List.Basic

namespace MLRunX.RecentFirst

variable {α κ : Type} [DecidableEq κ] (key : α → κ) (cap : Nat)

/-- An item goes to the front, made of the item that has its key or anew. The list is kept within its bound. -/
def place (k : κ) (renewed : α → α) (fresh : α) (items : List α) : α × List α :=
  match items.find? (fun a => key a == k) with
  | some a => (renewed a, (renewed a :: items.eraseP (fun a => key a == k)).take cap)
  | none => (fresh, (fresh :: items).take cap)

variable {key cap} {k : κ} {renewed : α → α} {fresh : α} {items : List α}

theorem place_eq (key : α → κ) (cap : Nat) (k : κ) (renewed : α → α) (fresh : α) (items : List α) :
    ∃ a, place key cap k renewed fresh items = (a, (a :: items.eraseP (fun a => key a == k)).take cap) ∧
      (a = fresh ∨ ∃ b ∈ items, a = renewed b) := by
  unfold place
  cases hfind : items.find? (fun a => key a == k) with
  | some b => exact ⟨renewed b, rfl, .inr ⟨b, List.mem_of_find?_eq_some hfind, rfl⟩⟩
  | none =>
      have hnone : items.eraseP (fun a => key a == k) = items :=
        List.eraseP_of_forall_not (fun a ha => List.find?_eq_none.mp hfind a ha)
      exact ⟨fresh, by rw [hnone], .inl rfl⟩

theorem head_place (hcap : cap ≠ 0) (k : κ) (renewed : α → α) (fresh : α) (items : List α) :
    (place key cap k renewed fresh items).2.head? = some (place key cap k renewed fresh items).1 := by
  obtain ⟨a, heq, -⟩ := place_eq key cap k renewed fresh items
  rw [heq, List.head?_take, if_neg hcap]
  rfl

theorem length_place (k : κ) (renewed : α → α) (fresh : α) (items : List α) :
    (place key cap k renewed fresh items).2.length ≤ cap := by
  obtain ⟨a, heq, -⟩ := place_eq key cap k renewed fresh items
  rw [heq]
  exact List.length_take_le _ _

theorem forall_place {P : α → Prop} (hrenewed : ∀ a, P a → P (renewed a)) (hfresh : P fresh)
    (h : ∀ a ∈ items, P a) :
    ∀ a ∈ (place key cap k renewed fresh items).2, P a := by
  obtain ⟨a, heq, ha⟩ := place_eq key cap k renewed fresh items
  rw [heq]
  intro b hb
  rcases List.mem_cons.mp (List.mem_of_mem_take hb) with rfl | hb
  · rcases ha with rfl | ⟨c, hc, rfl⟩
    · exact hfresh
    · exact hrenewed c (h c hc)
  · exact h b (List.mem_of_mem_eraseP hb)

/-- Where no two items share a key, the first of a key is the only one. -/
theorem not_mem_eraseP (h : (items.map key).Nodup) : k ∉ (items.eraseP (fun a => key a == k)).map key := by
  induction items with
  | nil => simp
  | cons a items ih =>
      obtain ⟨ha, hitems⟩ := List.nodup_cons.mp (show (key a :: items.map key).Nodup from h)
      by_cases hk : key a = k
      · rw [List.eraseP_cons_of_pos (by simpa using hk), ← hk]
        exact ha
      · rw [List.eraseP_cons_of_neg (by simpa using hk), List.map_cons, List.mem_cons, not_or]
        exact ⟨fun heq => hk heq.symm, ih hitems⟩

theorem nodup_place (hrenewed : ∀ a, key (renewed a) = k) (hfresh : key fresh = k) (h : (items.map key).Nodup) :
    ((place key cap k renewed fresh items).2.map key).Nodup := by
  obtain ⟨a, heq, ha⟩ := place_eq key cap k renewed fresh items
  have hkey : key a = k := by
    rcases ha with rfl | ⟨b, -, rfl⟩
    · exact hfresh
    · exact hrenewed b
  rw [heq, List.map_take, List.map_cons, hkey]
  refine List.Nodup.sublist (List.take_sublist _ _) (List.nodup_cons.mpr ⟨not_mem_eraseP h, ?_⟩)
  exact h.sublist (List.eraseP_sublist.map key)

end MLRunX.RecentFirst
