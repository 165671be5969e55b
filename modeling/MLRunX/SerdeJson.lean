import MLRunX.JsonMeaning
import MLRunX.Text

namespace MLRunX.SerdeJson

open JsonMeaning JsonText JsonValues Text

variable (N : Numbers)

/-- Values are read in documents of so many arrays and objects around each other at most. -/
def maxNesting : Nat := 127

def fromDoc (d : Doc) : Option Json := if d.depth ≤ maxNesting then meaning N d else none

def fromStr (s : String) : Option Json := (scan s.toList).bind (fromDoc N)

def serdeFormat : Format String String where
  text s := (serdeSpelling.spell s).flatMap Letter.chars
  number t := (N.spell t).chars
  gap := []

def toStr (j : Json) : String := String.ofList ((tree j).write (serdeFormat N))

def jsonSerializedSize (j : Json) : Nat := byteLength (toStr N j)

/-- An object is put down in the order of its keys. -/
def jsonObject (fields : List (String × Json)) : Json := .object (ordered fields)

variable {N}

theorem allNumbers_const {κ ν : Type} (d : JsonTree κ ν) : d.allNumbers (fun _ => true) = true := by
  have hitems (items : List (JsonTree κ ν)) (ih : ∀ d ∈ items, d.allNumbers (fun _ => true) = true) :
      allNumbersItems (fun _ => true) items = true := by
    induction items with
    | nil => rfl
    | cons d items ih' =>
        obtain ⟨hd, hds⟩ := List.forall_mem_cons.mp ih
        simp only [allNumbersItems, hd, ih' hds, Bool.true_and]
  have hfields (fields : List (κ × JsonTree κ ν)) (ih : ∀ f ∈ fields, f.2.allNumbers (fun _ => true) = true) :
      allNumbersFields (fun _ => true) fields = true := by
    induction fields with
    | nil => rfl
    | cons f fields ih' =>
        obtain ⟨key, d⟩ := f
        obtain ⟨hd, hds⟩ := List.forall_mem_cons.mp ih
        simp only [allNumbersFields, hd, ih' hds, Bool.true_and]
  induction d using JsonTree.induct with
  | null => rfl
  | bool b => rfl
  | number n => rfl
  | string s => rfl
  | array items ih => exact hitems items ih
  | object fields ih => exact hfields fields ih

theorem scan_toStr (j : Json) : scan (toStr N j).toList = some (docOf N serdeSpelling j) := by
  have hwrite : (docOf N serdeSpelling j).write (docFormat []) = (tree j).write (serdeFormat N) := by
    apply write_map
    · exact fun _ => rfl
    · exact fun _ => rfl
    · rfl
  have hnumbers : (docOf N serdeSpelling j).allNumbers Literal.isNumeral = true :=
    (allNumbers_map (tree j)).trans (allNumbers_const (tree j))
  rw [toStr, String.toList_ofList, ← hwrite, scan_write (fun _ h => absurd h List.not_mem_nil), if_pos hnumbers]

theorem fromStr_toStr {j : Json} (hj : Normal N j) (hdepth : (tree j).depth ≤ maxNesting) :
    fromStr N (toStr N j) = some (reread N j) := by
  rw [fromStr, scan_toStr, Option.bind_some, fromDoc, docOf, depth_map, if_pos hdepth]
  exact meaning_docOf serdeSpelling hj

theorem normal_fromStr {s : String} {j : Json} (h : fromStr N s = some j) : Normal N j := by
  obtain ⟨d, -, hd⟩ := Option.bind_eq_some_iff.mp h
  unfold fromDoc at hd
  split at hd
  · exact normal_meaning hd
  · cases hd

end MLRunX.SerdeJson
