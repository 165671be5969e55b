import Mathlib.Data.List.Infix

namespace MLRunX.Placeholders

variable {β : Type}

/-- A part of a statement: text, or a value where the statement has a placeholder. -/
inductive Piece (β : Type)
  | text (s : String)
  | bound (value : β)
  deriving DecidableEq, Repr

def Piece.sql : Piece β → String
  | .text s => s
  | .bound _ => "?"

def Piece.values : Piece β → List β
  | .text _ => []
  | .bound value => [value]

def Piece.spelled : Piece β → List (Char ⊕ β)
  | .text s => s.toList.map .inl
  | .bound value => [.inr value]

def Piece.isLiteral : Piece β → Bool
  | .text s => s.toList.all (fun c => c != '?')
  | .bound _ => true

def sqlText : List (Piece β) → String
  | [] => ""
  | piece :: pieces => piece.sql ++ sqlText pieces

def values (pieces : List (Piece β)) : List β := pieces.flatMap Piece.values

def spelled (pieces : List (Piece β)) : List (Char ⊕ β) := pieces.flatMap Piece.spelled

def Literal (pieces : List (Piece β)) : Prop := ∀ piece ∈ pieces, piece.isLiteral = true

/-- The k-th question mark of a text stands for the k-th value, and there are as
many of them. No text here quotes a question mark. -/
def bindValues : List Char → List β → Option (List (Char ⊕ β))
  | [], values => if values.isEmpty then some [] else none
  | c :: cs, values =>
      if c = '?' then
        values.head?.bind (fun value => (bindValues cs values.tail).map (fun rest => .inr value :: rest))
      else
        (bindValues cs values).map (fun rest => .inl c :: rest)

@[simp] theorem isLiteral_bound (value : β) : (Piece.bound value).isLiteral = true := rfl

theorem isLiteral_ofList {cs : List Char} (h : cs.all (fun c => c != '?') = true) :
    (Piece.text (String.ofList cs) : Piece β).isLiteral = true := by
  rw [Piece.isLiteral, String.toList_ofList]
  exact h

theorem isLiteral_append {s t : String} (hs : (Piece.text s : Piece β).isLiteral = true)
    (ht : (Piece.text t : Piece β).isLiteral = true) : (Piece.text (s ++ t) : Piece β).isLiteral = true := by
  rw [Piece.isLiteral, String.toList_append, List.all_append, Bool.and_eq_true]
  exact ⟨hs, ht⟩

@[simp] theorem sqlText_append (ps qs : List (Piece β)) : sqlText (ps ++ qs) = sqlText ps ++ sqlText qs := by
  induction ps with
  | nil => simp [sqlText]
  | cons p ps ih => simp [sqlText, ih, String.append_assoc]

@[simp] theorem values_append (ps qs : List (Piece β)) : values (ps ++ qs) = values ps ++ values qs :=
  List.flatMap_append

theorem literal_append {ps qs : List (Piece β)} : Literal (ps ++ qs) ↔ Literal ps ∧ Literal qs :=
  List.forall_mem_append

theorem literal_cons {p : Piece β} {ps : List (Piece β)} : Literal (p :: ps) ↔ p.isLiteral = true ∧ Literal ps :=
  List.forall_mem_cons

theorem literal_nil : Literal ([] : List (Piece β)) := List.forall_mem_nil _

theorem bindValues_text {cs : List Char} (h : cs.all (fun c => c != '?') = true) (ds : List Char) (vs : List β) :
    bindValues (cs ++ ds) vs = (bindValues ds vs).map (fun rest => cs.map .inl ++ rest) := by
  induction cs with
  | nil => simp
  | cons c cs ih =>
      rw [List.all_cons, Bool.and_eq_true, bne_iff_ne] at h
      rw [List.cons_append, bindValues, if_neg h.1, ih h.2, Option.map_map]
      rfl

/-- A statement whose texts have no placeholder of their own binds every value
in its own place. -/
theorem bindValues_sqlText {pieces : List (Piece β)} (h : Literal pieces) :
    bindValues (sqlText pieces).toList (values pieces) = some (spelled pieces) := by
  induction pieces with
  | nil => rfl
  | cons piece pieces ih =>
      obtain ⟨hpiece, hpieces⟩ := literal_cons.mp h
      cases piece with
      | text s =>
          have htext := bindValues_text hpiece (sqlText pieces).toList (values pieces)
          rw [ih hpieces] at htext
          simpa [sqlText, Piece.sql, values, Piece.values, spelled, Piece.spelled] using htext
      | bound value =>
          have hmark : (sqlText (.bound value :: pieces)).toList = '?' :: (sqlText pieces).toList := by
            simp [sqlText, Piece.sql]
          rw [hmark, bindValues, if_pos rfl]
          exact congrArg (Option.map _) (ih hpieces)

/-- Values that find their places are as many as the placeholders. -/
theorem count_of_bindValues {cs : List Char} {vs : List β} {bound : List (Char ⊕ β)}
    (h : bindValues cs vs = some bound) :
    cs.count '?' = vs.length := by
  induction cs generalizing vs bound with
  | nil =>
      rw [bindValues] at h
      split at h
      · rename_i hempty
        rw [List.isEmpty_iff.mp hempty]
        rfl
      · cases h
  | cons c cs ih =>
      rw [bindValues] at h
      split at h
      · rename_i hmark
        obtain ⟨value, hvalue, hrest⟩ := Option.bind_eq_some_iff.mp h
        obtain ⟨rest, hbind, -⟩ := Option.map_eq_some_iff.mp hrest
        cases vs with
        | nil => cases hvalue
        | cons v vs => simpa [hmark] using ih hbind
      · rename_i hmark
        obtain ⟨rest, hbind, -⟩ := Option.map_eq_some_iff.mp h
        rw [List.count_cons_of_ne hmark]
        exact ih hbind

end MLRunX.Placeholders
