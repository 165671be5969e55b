import Mathlib.Data.List.Basic

namespace MLRunX.JsonValues

/-- A JSON value. A number is its literal, and no key of an object stands twice. -/
inductive Json
  | null
  | bool (value : Bool)
  | number (literal : String)
  | string (text : String)
  | array (items : List Json)
  | object (fields : List (String × Json))

theorem Json.induct {P : Json → Prop} (null : P .null) (bool : ∀ b, P (.bool b)) (number : ∀ l, P (.number l))
    (string : ∀ s, P (.string s)) (array : ∀ items, (∀ j ∈ items, P j) → P (.array items))
    (object : ∀ fields, (∀ f ∈ fields, P f.2) → P (.object fields)) (j : Json) : P j :=
  @Json.rec P (fun items => ∀ j ∈ items, P j) (fun fields => ∀ f ∈ fields, P f.2) (fun f =>
    P f.2) null bool number
    string array object (fun _ h => absurd h List.not_mem_nil)
    (fun _ _ hj hjs => List.forall_mem_cons.mpr ⟨hj, hjs⟩) (fun _ h => absurd h List.not_mem_nil)
    (fun _ _ hf hfs => List.forall_mem_cons.mpr ⟨hf, hfs⟩) (fun _ _ hj => hj) j

def Json.asObject : Json → Option (List (String × Json))
  | .object fields => some fields
  | _ => none

def Json.asStr : Json → Option String
  | .string text => some text
  | _ => none

def textAt (fields : List (String × Json)) (key : String) : Option String :=
  (fields.lookup key).bind Json.asStr

def valueAt (fields : List (String × Json)) (key : String) : Json := (fields.lookup key).getD (.object [])

end MLRunX.JsonValues
