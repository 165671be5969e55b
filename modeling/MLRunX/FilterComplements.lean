import MLRunX.RunListing

namespace MLRunX.FilterComplements

open Conditions RunFilter RunListing RunTables

variable {db : Database} {row : JoinedRow} {value : String}

def Selected (db : Database) (row : JoinedRow) (target : RunFilterTarget) (op : RunFilterOperator)
    (value : String) : Prop :=
  (appendRunFilterConditionSql ⟨target, op, value⟩).selects (RunAtom.truth db row) = true

def Complementary (db : Database) (row : JoinedRow) (target : RunFilterTarget) (value : String) : Prop :=
  Selected db row target .notEq value ↔ ¬ Selected db row target .eq value

/-- The columns that a condition compares, where they may be missing. -/
def Present (row : JoinedRow) : RunFilterTarget → Prop
  | .name => row.run.name.isSome = true
  | .owner => row.run.createdByUserId.isSome = true
  | _ => True

theorem selects_compareColumn_ne {column : RunColumn} :
    (compareColumn column .ne value).selects (RunAtom.truth db row) = true ↔
      ∃ text, column.read row = some text ∧ text ≠ value := by
  rw [compareColumn, selects_atom, RunAtom.truth, Test.truth, Option.map_eq_some_iff]
  simp [Comparison.holds]

theorem complement_compareColumn (column : RunColumn) :
    ((compareColumn column .ne value).selects (RunAtom.truth db row) = true ↔
        ¬ (compareColumn column .eq value).selects (RunAtom.truth db row) = true) ↔
      (column.read row).isSome = true := by
  rw [selects_compareColumn_ne, selects_compareColumn]
  cases column.read row with
  | none => simp
  | some text => simp

theorem complementary_project : Complementary db row .project value := by
  have hmissing : (Condition.atom (RunAtom.test (.isNull .projectName))).selects (RunAtom.truth db row) = true ↔
      row.project = none := by
    rw [selects_atom]
    simp [RunAtom.truth, Test.truth, RunColumn.read]
  rw [Complementary, Selected, Selected]
  change (Condition.both _ (.either _ _)).selects _ = true ↔ ¬ (Condition.either _ _).selects _ = true
  rw [selects_both, selects_either, selects_either, hmissing, selects_compareColumn_ne, selects_compareColumn_ne,
    selects_compareColumn, selects_compareColumn]
  cases hproject : row.project with
  | none => simp [RunColumn.read, hproject]
  | some project => simp [RunColumn.read, hproject]

theorem selects_found (present : Bool) (table : MetadataTable) (c : Condition (Test MetadataColumn)) :
    (Condition.atom (RunAtom.found present table c)).selects (RunAtom.truth db row) = true ↔
      (metadataOf db row.run.id table).any (fun pair => c.selects (Test.truth (MetadataColumn.read pair))) =
        present := by
  rw [selects_atom, RunAtom.truth, Option.some.injEq, beq_iff_eq]

theorem complementary_metadata (table : MetadataTable) (key : String) (legacyKey : Option String) :
    (metadataCondition table key legacyKey value .notEq).selects (RunAtom.truth db row) = true ↔
      ¬ (metadataCondition table key legacyKey value .eq).selects (RunAtom.truth db row) = true := by
  rw [metadataCondition, metadataCondition, selects_found, selects_found, Bool.not_eq_true]

/-- Inequality is the complement of equality wherever the column is there. -/
theorem complementary_iff (db : Database) (row : JoinedRow) (target : RunFilterTarget) (value : String) :
    Complementary db row target value ↔ Present row target := by
  cases target with
  | project => exact iff_of_true complementary_project trivial
  | owner => exact complement_compareColumn .createdByUserId
  | status => exact iff_of_true ((complement_compareColumn .status).mpr rfl) trivial
  | name => exact complement_compareColumn .name
  | runId => exact iff_of_true ((complement_compareColumn .id).mpr rfl) trivial
  | createdAt => exact iff_of_true ((complement_compareColumn .createdAt).mpr rfl) trivial
  | tag key legacyKey => exact iff_of_true (complementary_metadata .tags key legacyKey) trivial
  | param key legacyKey => exact iff_of_true (complementary_metadata .params key legacyKey) trivial

def unnamedRow : JoinedRow where
  run := ⟨"r", "p", none, "running", none, none, 0, 0⟩
  times := ⟨"2026-01-01 00:00:00", "2026-01-01 00:00:00", none⟩
  project := none

theorem unnamed_lost : ¬ ∀ (db : Database) (row : JoinedRow) (target : RunFilterTarget) (value : String),
    Complementary db row target value := by
  intro h
  have hname : ¬ Selected .empty unnamedRow .name .eq "a" := by
    rw [Selected]
    decide
  have hdiffers := (h .empty unnamedRow .name "a").mpr hname
  rw [Selected] at hdiffers
  revert hdiffers
  decide

end MLRunX.FilterComplements
