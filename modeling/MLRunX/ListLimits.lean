import MLRunX.LikePatterns
import MLRunX.RunListSql

namespace MLRunX.ListLimits

open Auth Commands Conditions LikePatterns RunInit RunTables Sqlite Statements
open RunListing hiding appendRunFilterConditionSql appendRunFilterExprSql appendRunOrderSql
open RunListSql hiding appendRunFilterConditionSql appendRunFilterExprSql appendRunOrderSql

/-! What the database measures of a condition before it runs a statement with it. -/

def maxExprDepth : ℕ := 1000

def maxVariableNumber : ℕ := 32766

section Conditions

variable {α : Type}

/-- The height of the tree that a condition is read as. A constant compares two numbers. -/
def height (atom : α → ℕ) : Condition α → ℕ
  | .constant _ => 2
  | .atom a => atom a
  | .both left right | .either left right => max (height atom left) (height atom right) + 1

def largest (atom : α → ℕ) : Condition α → ℕ
  | .constant _ => 0
  | .atom a => atom a
  | .both left right | .either left right => max (largest atom left) (largest atom right)

def atoms : Condition α → List α
  | .constant _ => []
  | .atom a => [a]
  | .both left right | .either left right => atoms left ++ atoms right

theorem height_foldl (atom : α → ℕ) (c : Condition α) (cs : List (Condition α)) :
    height atom c + cs.length ≤ height atom (cs.foldl .both c) := by
  induction cs generalizing c with
  | nil => exact Nat.le_refl _
  | cons d cs ih =>
      have hstep := ih (c.both d)
      rw [height] at hstep
      rw [List.foldl_cons, List.length_cons]
      omega

theorem length_le_height (atom : α → ℕ) (cs : List (Condition α)) :
    cs.length + 2 ≤ height atom (whereClause cs) := by
  have h := height_foldl atom (.constant true) cs
  rw [height] at h
  rw [whereClause]
  omega

end Conditions

def testHeight {κ : Type} (_ : Test κ) : ℕ := 3

/-- The condition of a query inside of a clause, whose first conjunct compares the run ids. -/
def innerHeight : Condition (Test MetadataColumn) → ℕ
  | .both left right => max (max 3 (height testHeight left) + 1) (height testHeight right) + 1
  | c => max 3 (height testHeight c) + 1

def atomHeight : RunAtom → ℕ
  | .test t => testHeight t
  | .found present _ c => innerHeight c + if present then 1 else 2

def atomInner : RunAtom → ℕ
  | .test _ => 0
  | .found _ _ c => innerHeight c

/-- A query inside of a clause is measured from the top of the clause. -/
def whereDepth (args : RunListArgs) : ℕ :=
  height atomHeight (whereClause args.conditions) + largest atomInner (whereClause args.conditions)

def testPatterns {κ : Type} : Test κ → List String
  | .like _ pattern => [pattern]
  | _ => []

def atomPatterns : RunAtom → List String
  | .test t => testPatterns t
  | .found _ _ c => (atoms c).flatMap testPatterns

def likePatterns (args : RunListArgs) : List String := (atoms (whereClause args.conditions)).flatMap atomPatterns

/-- What the database refuses a statement for. It does so for a pattern when it comes to a row;
that it comes to every pattern there is the worst case. -/
def refusal (statement : Statement) (args : RunListArgs) (s : MetadataStore) : Option String :=
  if maxExprDepth < whereDepth args then some s!"Expression tree is too large (maximum depth {maxExprDepth})"
  else if maxVariableNumber < statement.params.length then some "too many SQL variables"
  else if (joined s).isEmpty then none
  else if (likePatterns args).any patternTooComplex then some "LIKE or GLOB pattern too complex"
  else none

variable (env : ListEnv) (faults : ListFaults) (args : RunListArgs)

def listRunsLimited : Command MetadataStore SqliteError (List JoinedRow × ℕ) := fun s =>
  listRuns env { faults with
    count := (refusal (countStatement args) args s).or faults.count
    select := (refusal (selectStatement args) args s).or faults.select } args s

structure Fits : Prop where
  depth : whereDepth args ≤ maxExprDepth
  values : (selectStatement args).params.length ≤ maxVariableNumber
  patterns : ∀ pattern ∈ likePatterns args, patternTooComplex pattern = false

instance : Decidable (Fits args) :=
  decidable_of_iff (whereDepth args ≤ maxExprDepth ∧ (selectStatement args).params.length ≤ maxVariableNumber ∧
    ∀ pattern ∈ likePatterns args, patternTooComplex pattern = false)
    ⟨fun ⟨hdepth, hvalues, hpatterns⟩ => ⟨hdepth, hvalues, hpatterns⟩, fun h =>
      ⟨h.depth, h.values, h.patterns⟩⟩

variable {env faults args} {s : MetadataStore}

theorem refusal_none {statement : Statement} (h : Fits args) (hvalues : statement.params.length ≤ maxVariableNumber) :
    refusal statement args s = none := by
  have hpatterns : (likePatterns args).any patternTooComplex = false := by
    rw [List.any_eq_false]
    intro pattern hpattern
    rw [h.patterns pattern hpattern]
    exact Bool.false_ne_true
  rw [refusal, if_neg (not_lt.mpr h.depth), if_neg (not_lt.mpr hvalues), hpatterns, if_neg Bool.false_ne_true, ite_self]

theorem listRunsLimited_within (h : Fits args) : listRunsLimited env faults args s = listRuns env faults args s := by
  have hcount : (countStatement args).params.length ≤ maxVariableNumber := by
    have hselect := h.values
    rw [selectStatement, List.length_append] at hselect
    exact (Nat.le_add_right _ _).trans hselect
  rw [listRunsLimited, refusal_none h hcount, refusal_none h h.values]
  rfl

theorem fits_offset (h : Fits args) (offset : ℕ) : Fits { args with offset } where
  depth := h.depth
  values := by
    have hvalues := h.values
    rw [selectStatement, List.length_append] at hvalues ⊢
    exact hvalues
  patterns := h.patterns

theorem listRunsLimited_refused (h : maxExprDepth < whereDepth args) :
    ∃ error, listRunsLimited env faults args s = (.error error, s) := by
  rw [listRunsLimited, refusal, if_pos h]
  exact ⟨_, rfl⟩

theorem many_refused (h : maxExprDepth ≤ args.tagFilters.length + args.paramFilters.length) :
    maxExprDepth < whereDepth args := by
  have hheight := length_le_height atomHeight args.conditions
  have hlength : args.tagFilters.length + args.paramFilters.length ≤ args.conditions.length := by
    simp only [RunListArgs.conditions, List.length_append, List.length_map]
    omega
  rw [whereDepth]
  omega

end MLRunX.ListLimits
