import Mathlib.Data.List.Infix

namespace MLRunX.Conditions

abbrev Truth := Option Bool

def both : Truth → Truth → Truth
  | some false, _ => some false
  | _, some false => some false
  | some true, some true => some true
  | _, _ => none

def either : Truth → Truth → Truth
  | some true, _ => some true
  | _, some true => some true
  | some false, some false => some false
  | _, _ => none

theorem both_eq_true {s t : Truth} : both s t = some true ↔ s = some true ∧ t = some true := by
  rcases s with _ | _ | _ <;> rcases t with _ | _ | _ <;> decide

theorem either_eq_true {s t : Truth} : either s t = some true ↔ s = some true ∨ t = some true := by
  rcases s with _ | _ | _ <;> rcases t with _ | _ | _ <;> decide

inductive Comparison
  | eq | ne | lt | le | gt | ge
  deriving DecidableEq, Repr

def Comparison.holds : Comparison → String → String → Bool
  | .eq, a, b => a == b
  | .ne, a, b => a != b
  | .lt, a, b => decide (a < b)
  | .le, a, b => !decide (b < a)
  | .gt, a, b => decide (b < a)
  | .ge, a, b => !decide (a < b)

/-- Matching of a LIKE pattern, which ignores the case of ASCII letters. -/
def matchesPattern : List Char → List Char → Bool
  | [] => fun cs => cs.isEmpty
  | p :: ps =>
      if p = '%' then fun cs => cs.tails.any (matchesPattern ps)
      else fun cs => match cs with
        | [] => false
        | c :: cs => (p == '_' || p.toLower == c.toLower) && matchesPattern ps cs

def like (pattern text : String) : Bool :=
  matchesPattern (pattern.toList.takeWhile (· ≠ '\x00')) (text.toList.takeWhile (· ≠ '\x00'))

/-- A test of one column of a row. -/
inductive Test (κ : Type)
  | compare (column : κ) (op : Comparison) (value : String)
  | like (column : κ) (pattern : String)
  | isNull (column : κ)
  deriving DecidableEq, Repr

variable {κ α : Type}

def Test.truth (read : κ → Option String) : Test κ → Truth
  | .compare column op value => (read column).map (fun text => op.holds text value)
  | .like column pattern => (read column).map (fun text => Conditions.like pattern text)
  | .isNull column => some (read column).isNone

inductive Condition (α : Type)
  | constant (value : Bool)
  | atom (a : α)
  | both (left right : Condition α)
  | either (left right : Condition α)
  deriving DecidableEq, Repr

def Condition.truth (f : α → Truth) : Condition α → Truth
  | .constant value => some value
  | .atom a => f a
  | .both left right => Conditions.both (left.truth f) (right.truth f)
  | .either left right => Conditions.either (left.truth f) (right.truth f)

/-- A row is selected when the condition is true, not when it is unknown. -/
def Condition.selects (c : Condition α) (f : α → Truth) : Bool := c.truth f == some true

def whereClause (cs : List (Condition α)) : Condition α := cs.foldl .both (.constant true)

variable {f : α → Truth}

theorem selects_eq_true {c : Condition α} : c.selects f = true ↔ c.truth f = some true := beq_iff_eq

theorem selects_both {c d : Condition α} : (c.both d).selects f = true ↔ c.selects f = true ∧
    d.selects f = true := by
  rw [selects_eq_true, selects_eq_true, selects_eq_true]
  exact both_eq_true

theorem selects_either {c d : Condition α} :
    (c.either d).selects f = true ↔ c.selects f = true ∨ d.selects f = true := by
  rw [selects_eq_true, selects_eq_true, selects_eq_true]
  exact either_eq_true

theorem selects_atom {a : α} : (Condition.atom a).selects f = true ↔ f a = some true := selects_eq_true

theorem selects_foldl (cs : List (Condition α)) (c : Condition α) :
    (cs.foldl .both c).selects f = true ↔ c.selects f = true ∧ ∀ d ∈ cs, d.selects f = true := by
  induction cs generalizing c with
  | nil => simp
  | cons d cs ih => simp [ih, selects_both, and_assoc]

theorem selects_whereClause (cs : List (Condition α)) :
    (whereClause cs).selects f = true ↔ ∀ c ∈ cs, c.selects f = true := by
  rw [whereClause, selects_foldl]
  exact and_iff_right rfl

theorem truth_compare_eq {read : κ → Option String} {column : κ} {value : String} :
    (Test.compare column .eq value).truth read = some true ↔ read column = some value := by
  cases h : read column <;> simp [Test.truth, Comparison.holds, h]

end MLRunX.Conditions
