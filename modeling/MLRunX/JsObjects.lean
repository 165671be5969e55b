import Mathlib.Data.List.Sort
import MLRunX.CodeUnits

namespace MLRunX.JsObjects

open CodeUnits

variable {α : Type}

/-- Sets a property. Properties keep the order in which they were made. -/
def setProperty : List (JsString × α) → JsString × α → List (JsString × α)
  | [], f => [f]
  | g :: gs, f => if g.1 = f.1 then f :: gs else g :: setProperty gs f

/-- The object with some properties. The last of equal keys counts. -/
def fromEntries (entries : List (JsString × α)) : List (JsString × α) := entries.foldl setProperty []

def isDigit (u : Fin 65536) : Bool := 48 ≤ u.1 && u.1 ≤ 57

def keyNumber (key : JsString) : Nat := key.foldl (fun n u => 10 * n + (u.1 - 48)) 0

/-- The key is an index of an array, in the form in which it is printed. -/
def isIndex (key : JsString) : Bool :=
  !key.isEmpty && key.all isDigit && (key.length == 1 || key.head? != some (codeUnit 48)) && keyNumber key < 4294967295

/-- The properties as they are listed: indices by their number, then the others as they were made. -/
def ownEntries (fields : List (JsString × α)) : List (JsString × α) :=
  (fields.filter (fun f => isIndex f.1)).mergeSort (fun f g => decide (keyNumber f.1 ≤ keyNumber g.1)) ++
    fields.filter (fun f => !isIndex f.1)

def Object (fields : List (JsString × α)) : Prop := (fields.map Prod.fst).Nodup

def SameMap (fields fields' : List (JsString × α)) : Prop := ∀ key, fields.lookup key = fields'.lookup key

variable {fields fields' entries : List (JsString × α)}

theorem map_fst_setProperty (fields : List (JsString × α)) (f : JsString × α) :
    (setProperty fields f).map Prod.fst =
      if f.1 ∈ fields.map Prod.fst then fields.map Prod.fst else fields.map Prod.fst ++ [f.1] := by
  induction fields with
  | nil => simp [setProperty]
  | cons g gs ih =>
      rw [setProperty]
      by_cases h : g.1 = f.1
      · simp [h]
      · have hne : ¬ f.1 = g.1 := fun heq => h heq.symm
        rw [if_neg h, List.map_cons, ih, List.map_cons]
        by_cases hmem : f.1 ∈ gs.map Prod.fst
        · rw [if_pos hmem, if_pos (List.mem_cons_of_mem _ hmem)]
        · rw [if_neg hmem, if_neg (by simp only [List.mem_cons, hne, hmem, or_self, not_false_eq_true])]
          rfl

theorem Object.setProperty (h : Object fields) (f : JsString × α) : Object (setProperty fields f) := by
  rw [Object, map_fst_setProperty]
  split
  · exact h
  · rename_i hnew
    exact List.nodup_append.mpr ⟨h, List.nodup_singleton _, by
      rintro key hkey _ hf rfl
      rw [List.mem_singleton] at hf
      exact hnew (hf ▸ hkey)⟩

theorem mem_setProperty {f g : JsString × α} (h : g ∈ setProperty fields f) : g = f ∨ g ∈ fields := by
  induction fields with
  | nil => exact .inl (List.mem_singleton.mp h)
  | cons e fields ih =>
      rw [setProperty] at h
      split at h
      · exact (List.mem_cons.mp h).imp_right (List.mem_cons_of_mem e)
      · rcases List.mem_cons.mp h with rfl | h
        · exact .inr List.mem_cons_self
        · exact (ih h).imp_right (List.mem_cons_of_mem e)

theorem setProperty_new {f : JsString × α} (h : f.1 ∉ fields.map Prod.fst) :
    setProperty fields f = fields ++ [f] := by
  induction fields with
  | nil => rfl
  | cons g gs ih =>
      rw [List.map_cons, List.mem_cons, not_or] at h
      rw [setProperty, if_neg (fun heq => h.1 heq.symm), ih h.2]
      rfl

theorem object_foldl (h : Object fields) (entries : List (JsString × α)) :
    Object (entries.foldl setProperty fields) := by
  induction entries generalizing fields with
  | nil => exact h
  | cons f entries ih => exact ih (h.setProperty f)

theorem object_fromEntries (entries : List (JsString × α)) : Object (fromEntries entries) :=
  @object_foldl α [] List.nodup_nil entries

theorem mem_fromEntries {f : JsString × α} (h : f ∈ fromEntries entries) : f ∈ entries := by
  have hfold : ∀ fields, f ∈ entries.foldl setProperty fields → f ∈ fields ∨ f ∈ entries := by
    clear h
    induction entries with
    | nil => exact fun _ hf => .inl hf
    | cons g entries ih =>
        intro fields hf
        rcases ih _ hf with hf | hf
        · rcases mem_setProperty hf with rfl | hf
          · exact .inr List.mem_cons_self
          · exact .inl hf
        · exact .inr (List.mem_cons_of_mem g hf)
  exact (hfold [] h).resolve_left List.not_mem_nil

theorem mem_keys_foldl {key : JsString} (fields entries : List (JsString × α)) :
    key ∈ (entries.foldl setProperty fields).map Prod.fst ↔
      key ∈ fields.map Prod.fst ∨ key ∈ entries.map Prod.fst := by
  induction entries generalizing fields with
  | nil => simp
  | cons f entries ih =>
      rw [List.foldl_cons, ih, map_fst_setProperty, List.map_cons, List.mem_cons, ← or_assoc]
      refine or_congr_left ?_
      split
      · rename_i hold
        refine ⟨.inl, fun h => h.elim id ?_⟩
        rintro rfl
        exact hold
      · rw [List.mem_append, List.mem_singleton]

theorem mem_keys_fromEntries {key : JsString} :
    key ∈ (fromEntries entries).map Prod.fst ↔ key ∈ entries.map Prod.fst := by
  rw [fromEntries, mem_keys_foldl]
  simp

theorem length_fromEntries_le (entries : List (JsString × α)) : (fromEntries entries).length ≤ entries.length := by
  have hsub : (fromEntries entries).map Prod.fst ⊆ entries.map Prod.fst := fun _ => mem_keys_fromEntries.mp
  simpa using List.Nodup.length_le_of_subset (object_fromEntries entries) hsub

theorem fromEntries_of_object (h : Object entries) : fromEntries entries = entries := by
  have hfold : ∀ fields, Object (fields ++ entries) → entries.foldl setProperty fields = fields ++ entries := by
    clear h
    induction entries with
    | nil => exact fun fields _ => (List.append_nil fields).symm
    | cons f entries ih =>
        intro fields hobject
        have hnew : f.1 ∉ fields.map Prod.fst := by
          intro hf
          rw [Object, List.map_append, List.map_cons] at hobject
          exact (List.nodup_append.mp hobject).2.2 f.1 hf f.1 List.mem_cons_self rfl
        rw [List.foldl_cons, setProperty_new hnew, ih _ (by simpa using hobject), List.append_assoc]
        rfl
  exact hfold [] h

theorem ownEntries_perm (fields : List (JsString × α)) : (ownEntries fields).Perm fields :=
  ((List.mergeSort_perm _ _).append_right _).trans (List.filter_append_perm _ fields)

theorem ownEntries_eq_nil : ownEntries fields = [] ↔ fields = [] := by
  rw [← List.length_eq_zero_iff, (ownEntries_perm fields).length_eq, List.length_eq_zero_iff]

theorem Object.perm (h : Object fields) (hperm : fields'.Perm fields) : Object fields' :=
  (hperm.map Prod.fst).nodup_iff.mpr h

theorem Object.ownEntries (h : Object fields) : Object (ownEntries fields) := h.perm (ownEntries_perm fields)

theorem lookup_eq_some (h : Object fields) {key : JsString} {v : α} :
    fields.lookup key = some v ↔ (key, v) ∈ fields := by
  induction fields with
  | nil => simp
  | cons f fields ih =>
      obtain ⟨hnew, hfields⟩ := List.nodup_cons.mp (show ((f :: fields).map Prod.fst).Nodup from h)
      rw [List.lookup_cons, List.mem_cons]
      by_cases hkey : key = f.1
      · subst hkey
        have hnot : (f.1, v) ∉ fields := fun hmem => hnew (List.mem_map.mpr ⟨_, hmem, rfl⟩)
        simp [hnot, Prod.ext_iff, eq_comm]
      · have hne : ¬ (key, v) = f := fun heq => hkey (congrArg Prod.fst heq)
        rw [beq_eq_false_iff_ne.mpr hkey]
        simp only [hne, false_or]
        exact ih hfields

theorem sameMap_of_perm (h : Object fields) (hperm : fields'.Perm fields) : SameMap fields' fields := by
  intro key
  apply Option.ext
  intro v
  rw [lookup_eq_some h, lookup_eq_some (h.perm hperm)]
  exact hperm.mem_iff

theorem SameMap.keys (h : Object fields) (h' : Object fields') (hsame : SameMap fields fields') {key : JsString}
    (hkey : key ∈ fields.map Prod.fst) : key ∈ fields'.map Prod.fst := by
  obtain ⟨⟨_, v⟩, hmem, rfl⟩ := List.mem_map.mp hkey
  have hlookup := (lookup_eq_some h).mpr hmem
  rw [hsame] at hlookup
  exact List.mem_map_of_mem ((lookup_eq_some h').mp hlookup)

end MLRunX.JsObjects
