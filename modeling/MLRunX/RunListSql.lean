import MLRunX.FilterGrammar
import MLRunX.Placeholders
import MLRunX.RunListing

namespace MLRunX.RunListSql

open Conditions Placeholders RunFilter
open RunListing hiding appendRunFilterConditionSql appendRunFilterExprSql appendRunOrderSql

inductive SqlValue
  | text (value : String)
  | integer (value : Nat)
  deriving DecidableEq, Repr

abbrev ParamsVec := List SqlValue

def push (paramsVec : ParamsVec) (value : String) : ParamsVec := paramsVec ++ [.text value]

def pushRunFilterPatternParam (paramsVec : ParamsVec) (value : String) : ParamsVec := push paramsVec s!"%{value}%"

def textColumnSql (column value : String) (paramsVec : ParamsVec) : RunFilterOperator → String × ParamsVec
  | .eq => (column ++ " = ?", push paramsVec value)
  | .notEq => (column ++ " != ?", push paramsVec value)
  | .contains => (column ++ " LIKE ?", pushRunFilterPatternParam paramsVec value)
  | _ => ("1=0", paramsVec)

def createdAtSql (value : String) (paramsVec : ParamsVec) : RunFilterOperator → String × ParamsVec
  | .eq => ("r.created_at = ?", push paramsVec value)
  | .notEq => ("r.created_at != ?", push paramsVec value)
  | .gt => ("r.created_at > ?", push paramsVec value)
  | .gte => ("r.created_at >= ?", push paramsVec value)
  | .lt => ("r.created_at < ?", push paramsVec value)
  | .lte => ("r.created_at <= ?", push paramsVec value)
  | .contains => ("r.created_at LIKE ?", pushRunFilterPatternParam paramsVec value)

def projectSql (value : String) (paramsVec : ParamsVec) : RunFilterOperator → String × ParamsVec
  | .eq => ("(r.project_id = ? OR p.name = ?)", push (push paramsVec value) value)
  | .notEq => ("(r.project_id != ? AND (p.name IS NULL OR p.name != ?))", push (push paramsVec value) value)
  | .contains => ("(r.project_id LIKE ? OR p.name LIKE ?)",
      pushRunFilterPatternParam (pushRunFilterPatternParam paramsVec value) value)
  | _ => ("1=0", paramsVec)

def metadataColumn : MetadataTable → MetadataColumn → String
  | .tags, .key => "t.key"
  | .tags, .value => "t.value"
  | .params, .key => "p2.name"
  | .params, .value => "p2.value"

/-- The rows of a run in a table. -/
def rowsOfRun : MetadataTable → String
  | .tags => "tags t WHERE t.run_id = r.id"
  | .params => "params p2 WHERE p2.run_id = r.id"

def keySql (table : MetadataTable) (key : String) (paramsVec : ParamsVec) : Option String → String × ParamsVec
  | some legacy =>
      ("(" ++ metadataColumn table .key ++ " = ? OR " ++ metadataColumn table .key ++ " = ?)",
        push (push paramsVec key) legacy)
  | none => (metadataColumn table .key ++ " = ?", push paramsVec key)

/-- The key is pushed before the operator is looked at. -/
def metadataSql (table : MetadataTable) (key : String) (legacyKey : Option String) (value : String)
    (paramsVec : ParamsVec) (op : RunFilterOperator) : String × ParamsVec :=
  let (keySql, paramsVec) := keySql table key paramsVec legacyKey
  match op with
  | .eq => ("EXISTS (SELECT 1 FROM " ++ rowsOfRun table ++ " AND " ++ keySql ++ " AND " ++
      metadataColumn table .value ++ " = ?)",
      push paramsVec value)
  | .notEq => ("NOT EXISTS (SELECT 1 FROM " ++ rowsOfRun table ++ " AND " ++ keySql ++ " AND " ++
      metadataColumn table .value ++ " = ?)",
      push paramsVec value)
  | .contains => ("EXISTS (SELECT 1 FROM " ++ rowsOfRun table ++ " AND " ++ keySql ++ " AND " ++
      metadataColumn table .value ++ " LIKE ?)",
      pushRunFilterPatternParam paramsVec value)
  | _ => ("1=0", paramsVec)

def appendRunFilterConditionSql (c : RunFilterCondition) (paramsVec : ParamsVec) : String × ParamsVec :=
  match c.target with
  | .project => projectSql c.value paramsVec c.op
  | .owner => textColumnSql "r.created_by_user_id" c.value paramsVec c.op
  | .status => textColumnSql "r.status" c.value paramsVec c.op
  | .name => textColumnSql "r.name" c.value paramsVec c.op
  | .runId => textColumnSql "r.id" c.value paramsVec c.op
  | .createdAt => createdAtSql c.value paramsVec c.op
  | .tag key legacyKey => metadataSql .tags key legacyKey c.value paramsVec c.op
  | .param key legacyKey => metadataSql .params key legacyKey c.value paramsVec c.op

def appendRunFilterExprSql : RunFilterExpr → ParamsVec → String × ParamsVec
  | .condition c, paramsVec => appendRunFilterConditionSql c paramsVec
  | .and left right, paramsVec =>
      let (leftSql, paramsVec) := appendRunFilterExprSql left paramsVec
      let (rightSql, paramsVec) := appendRunFilterExprSql right paramsVec
      ("(" ++ leftSql ++ " AND " ++ rightSql ++ ")", paramsVec)
  | .or left right, paramsVec =>
      let (leftSql, paramsVec) := appendRunFilterExprSql left paramsVec
      let (rightSql, paramsVec) := appendRunFilterExprSql right paramsVec
      ("(" ++ leftSql ++ " OR " ++ rightSql ++ ")", paramsVec)

def directionSql : RunListSortOrder → String
  | .asc => "ASC"
  | .desc => "DESC"

def fieldSql : RunListSortField → String
  | .createdAt => "r.created_at"
  | .updatedAt => "r.updated_at"
  | .name => "COALESCE(r.name, '')"
  | .status => "r.status"
  | .durationSeconds => "(julianday(COALESCE(r.finished_at, r.updated_at)) - julianday(r.created_at)) * 86400.0"
  | .metricsCount => "r.metrics_count"
  | .paramsCount => "r.params_count"

def appendRunOrderSql (sql : String) (field : RunListSortField) (order : RunListSortOrder) : String :=
  let sql := sql ++ " ORDER BY " ++ fieldSql field ++ " " ++ directionSql order
  let sql := if field = .createdAt then sql else sql ++ ", r.created_at DESC"
  sql ++ ", r.id " ++ directionSql order

/-- The two statements and the values of both, which grow together. -/
structure ListSql where
  sql : String
  countSql : String
  paramsVec : ParamsVec
  deriving DecidableEq, Repr

def ListSql.pushStr (b : ListSql) (text : String) (values : ParamsVec) : ListSql :=
  ⟨b.sql ++ text, b.countSql ++ text, b.paramsVec ++ values⟩

def selectSql : String :=
  "SELECT r.id, r.project_id, r.name, r.status, " ++
  "r.created_by_key_id, r.created_by_user_id, r.created_at, r.updated_at,\n                    " ++
  "r.finished_at, r.metrics_count, r.params_count,\n                    " ++
  "(julianday(COALESCE(r.finished_at, r.updated_at)) - julianday(r.created_at)) * 86400.0\n             " ++
  "FROM runs r\n             LEFT JOIN projects p ON r.project_id = p.id\n             WHERE 1=1"

def countSql : String :=
  "SELECT COUNT(*) FROM runs r LEFT JOIN projects p ON r.project_id = p.id WHERE 1=1"

def pushProject (b : ListSql) (p : String) : ListSql :=
  b.pushStr " AND (r.project_id = ? OR p.name = ?)" [.text p, .text p]

def pushQuery (b : ListSql) (q : String) : ListSql :=
  b.pushStr " AND (r.name LIKE ? OR r.id LIKE ?)" [.text s!"%{q}%", .text s!"%{q}%"]

def pushComparison (text : String) (b : ListSql) (value : String) : ListSql :=
  b.pushStr text [.text value]

def pushKey (table : MetadataTable) (key : String) (b : ListSql) : Option String → ListSql
  | some legacyKey =>
      b.pushStr ("(" ++ metadataColumn table .key ++ " = ? OR " ++ metadataColumn table .key ++ " = ?)")
        [.text key, .text legacyKey]
  | none => b.pushStr (metadataColumn table .key ++ " = ?") [.text key]

def pushFilterValue (table : MetadataTable) (b : ListSql) (value : String) : ListSql :=
  b.pushStr (" AND " ++ metadataColumn table .value ++ " = ?") [.text value]

def pushMetadataFilter (table : MetadataTable) (b : ListSql) (filter : MetadataFilter) : ListSql :=
  let b := b.pushStr (" AND EXISTS (SELECT 1 FROM " ++ rowsOfRun table ++ " AND ") []
  let b := pushKey table filter.key b filter.legacyKey
  let b := filter.value.elim b (pushFilterValue table b)
  b.pushStr ")" []

def pushExpr (b : ListSql) (expr : RunFilterExpr) : ListSql :=
  let (exprSql, paramsVec) := appendRunFilterExprSql expr b.paramsVec
  ⟨b.sql ++ " AND " ++ exprSql, b.countSql ++ " AND " ++ exprSql, paramsVec⟩

def pushFilters (args : RunListArgs) : ListSql :=
  let b : ListSql := ⟨selectSql, countSql, []⟩
  let b := args.project.elim b (pushProject b)
  let b := args.ownerUserId.elim b (pushComparison " AND r.created_by_user_id = ?" b)
  let b := args.status.elim b (pushComparison " AND r.status = ?" b)
  let b := args.query.elim b (pushQuery b)
  let b := args.name.elim b (pushComparison " AND r.name = ?" b)
  let b := args.createdAfter.elim b (pushComparison " AND r.created_at >= ?" b)
  let b := args.createdBefore.elim b (pushComparison " AND r.created_at <= ?" b)
  let b := args.tagFilters.foldl (pushMetadataFilter .tags) b
  let b := args.paramFilters.foldl (pushMetadataFilter .params) b
  args.filterExpr.elim b (pushExpr b)

def i64Max : Nat := 9223372036854775807

structure Statement where
  sql : String
  params : ParamsVec
  deriving DecidableEq, Repr

def countStatement (args : RunListArgs) : Statement := ⟨(pushFilters args).countSql, (pushFilters args).paramsVec⟩

def selectStatement (args : RunListArgs) : Statement where
  sql := appendRunOrderSql (pushFilters args).sql args.sortField args.sortOrder ++ " LIMIT ? OFFSET ?"
  params := (pushFilters args).paramsVec ++ [.integer (min args.limit i64Max), .integer (min args.offset i64Max)]

/-! A condition as it is written, with each value in its place. -/

def columnSql : RunColumn → String
  | .id => "r.id"
  | .projectId => "r.project_id"
  | .name => "r.name"
  | .status => "r.status"
  | .createdByUserId => "r.created_by_user_id"
  | .createdAt => "r.created_at"
  | .projectName => "p.name"

def comparisonSql : Comparison → String
  | .eq => " = "
  | .ne => " != "
  | .lt => " < "
  | .le => " <= "
  | .gt => " > "
  | .ge => " >= "

section Writing

variable {κ α : Type}

def writeTest (column : κ → String) : Test κ → List (Piece SqlValue)
  | .compare c op value => [.text (column c), .text (comparisonSql op), .bound (.text value)]
  | .like c pattern => [.text (column c), .text " LIKE ", .bound (.text pattern)]
  | .isNull c => [.text (column c), .text " IS NULL"]

def writeCondition (atom : α → List (Piece SqlValue)) : Condition α → List (Piece SqlValue)
  | .constant true => [.text "1=1"]
  | .constant false => [.text "1=0"]
  | .atom a => atom a
  | .both left right =>
      .text "(" :: writeCondition atom left ++ .text " AND " :: writeCondition atom right ++ [.text ")"]
  | .either left right =>
      .text "(" :: writeCondition atom left ++ .text " OR " :: writeCondition atom right ++ [.text ")"]

/-- A conjunction that needs no parentheses. -/
def writeConjunction (atom : α → List (Piece SqlValue)) : Condition α → List (Piece SqlValue)
  | .both left right => writeCondition atom left ++ .text " AND " :: writeCondition atom right
  | c => writeCondition atom c

def writeAtom : RunAtom → List (Piece SqlValue)
  | .test t => writeTest columnSql t
  | .found present table c =>
      .text (if present then "EXISTS (SELECT 1 FROM " else "NOT EXISTS (SELECT 1 FROM ") :: .text (rowsOfRun table) ::
        .text " AND " :: writeConjunction (writeTest (metadataColumn table)) c ++ [.text ")"]

def writeRun (c : RunCondition) : List (Piece SqlValue) := writeCondition writeAtom c

def writeClauses (cs : List RunCondition) : List (Piece SqlValue) := cs.flatMap (fun c => .text " AND " :: writeRun c)

end Writing

/-! What the runs are ordered by, and the text of it. -/

inductive OrderColumn
  | field (f : RunListSortField)
  | id
  deriving DecidableEq, Repr

structure OrderTerm where
  column : OrderColumn
  order : RunListSortOrder
  deriving DecidableEq, Repr

def orderTerms (field : RunListSortField) (order : RunListSortOrder) : List OrderTerm :=
  ⟨.field field, order⟩ :: (if field = .createdAt then [] else [⟨.field .createdAt, .desc⟩]) ++
    [⟨.id, order⟩]

def OrderColumn.sql : OrderColumn → String
  | .field f => fieldSql f
  | .id => "r.id"

def OrderTerm.sql (term : OrderTerm) : String := term.column.sql ++ " " ++ directionSql term.order

def OrderColumn.compare (env : ListEnv) (a b : JoinedRow) : OrderColumn → Ordering
  | .field f => compareField env f a b
  | .id => Ord.compare a.run.id b.run.id

def OrderTerm.compare (env : ListEnv) (a b : JoinedRow) (term : OrderTerm) : Ordering :=
  directed term.order (term.column.compare env a b)

/-- Rows alike in one term are ordered by the next one. -/
def compareBy (env : ListEnv) (a b : JoinedRow) : List OrderTerm → Ordering
  | [] => .eq
  | term :: terms => (term.compare env a b).then (compareBy env a b terms)

def writeOrder (terms : List OrderTerm) : Piece SqlValue :=
  .text (" ORDER BY " ++ ", ".intercalate (terms.map OrderTerm.sql))

/-! The text that is built is the text that is written. -/

/-- What a builder answers with: the written text, and its values behind those
pushed before. -/
def Writes (built : ParamsVec → String × ParamsVec) (pieces : List (Piece SqlValue)) : Prop :=
  ∀ paramsVec, built paramsVec = (sqlText pieces, paramsVec ++ values pieces)

theorem constant_writes : Writes (fun ps => ("1=0", ps)) (writeRun (.constant false)) := by
  intro ps
  simp [writeRun, writeCondition, sqlText, Piece.sql, values, Piece.values]

theorem compareColumn_writes (column : RunColumn) (op : Comparison) (value : String) :
    Writes (fun ps => (columnSql column ++ comparisonSql op ++ "?", push ps value))
      (writeRun (compareColumn column op value)) := by
  intro ps
  simp [writeRun, compareColumn, writeCondition, writeAtom, writeTest, sqlText, Piece.sql, values,
    Piece.values, push, String.append_assoc]

theorem columnLike_writes (column : RunColumn) (value : String) :
    Writes (fun ps => (columnSql column ++ " LIKE ?", pushRunFilterPatternParam ps value))
      (writeRun (columnLike column value)) := by
  intro ps
  simp [writeRun, columnLike, writeCondition, writeAtom, writeTest, sqlText, Piece.sql, values, Piece.values, push,
    pushRunFilterPatternParam]

theorem textColumnSql_writes (column : RunColumn) (value : String) (op : RunFilterOperator) :
    Writes (fun ps => textColumnSql (columnSql column) value ps op)
      (writeRun (textColumnCondition column value op)) := by
  cases op with
  | eq => simpa [textColumnSql, textColumnCondition, comparisonSql, String.append_assoc]
      using compareColumn_writes column .eq value
  | notEq => simpa [textColumnSql, textColumnCondition, comparisonSql, String.append_assoc]
      using compareColumn_writes column .ne value
  | contains => exact columnLike_writes column value
  | gt | gte | lt | lte => exact constant_writes

theorem createdAtSql_writes (value : String) (op : RunFilterOperator) :
    Writes (fun ps => createdAtSql value ps op) (writeRun (timeColumnCondition value op)) := by
  cases op with
  | eq => exact compareColumn_writes .createdAt .eq value
  | notEq => exact compareColumn_writes .createdAt .ne value
  | gt => exact compareColumn_writes .createdAt .gt value
  | gte => exact compareColumn_writes .createdAt .ge value
  | lt => exact compareColumn_writes .createdAt .lt value
  | lte => exact compareColumn_writes .createdAt .le value
  | contains => exact columnLike_writes .createdAt value

theorem projectSql_writes (value : String) (op : RunFilterOperator) :
    Writes (fun ps => projectSql value ps op) (writeRun (projectCondition value op)) := by
  intro ps
  cases op <;> refine Prod.ext rfl ?_ <;>
    simp [projectSql, writeRun, projectCondition, isProject, compareColumn, columnLike, writeCondition, writeAtom,
      writeTest, values, Piece.values, push, pushRunFilterPatternParam]

theorem keySql_writes (table : MetadataTable) (key : String) (legacyKey : Option String) :
    Writes (fun ps => keySql table key ps legacyKey)
      (writeCondition (writeTest (metadataColumn table)) (keyCondition key legacyKey)) := by
  intro ps
  cases legacyKey <;> cases table <;> refine Prod.ext rfl ?_ <;>
    simp [keySql, keyCondition, writeCondition, writeTest, values, Piece.values, push]

/-- The parser lets a filter on metadata be equal, different or contain only. -/
def Supported (c : RunFilterCondition) : Prop :=
  match c.target with
  | .tag _ _ | .param _ _ => c.op.isText = true
  | _ => True

theorem metadataSql_writes (table : MetadataTable) (key : String) (legacyKey : Option String) (value : String)
    {op : RunFilterOperator} (h : op.isText = true) :
    Writes (fun ps => metadataSql table key legacyKey value ps op)
      (writeRun (metadataCondition table key legacyKey value op)) := by
  intro ps
  have hkey := keySql_writes table key legacyKey ps
  simp only [metadataSql, hkey]
  cases op <;> cases h <;>
    simp [metadataCondition, writeRun, writeCondition, writeAtom, writeConjunction, writeTest,
      comparisonSql, sqlText,
      Piece.sql, values, Piece.values, push, pushRunFilterPatternParam, String.append_assoc]

theorem appendRunFilterConditionSql_writes {c : RunFilterCondition} (h : Supported c) :
    Writes (appendRunFilterConditionSql c) (writeRun (RunListing.appendRunFilterConditionSql c)) := by
  obtain ⟨target, op, value⟩ := c
  cases target with
  | project => exact projectSql_writes value op
  | owner => exact textColumnSql_writes .createdByUserId value op
  | status => exact textColumnSql_writes .status value op
  | name => exact textColumnSql_writes .name value op
  | runId => exact textColumnSql_writes .id value op
  | createdAt => exact createdAtSql_writes value op
  | tag key legacyKey => exact metadataSql_writes .tags key legacyKey value h
  | param key legacyKey => exact metadataSql_writes .params key legacyKey value h

/-- The operators that the parser admits, in every part of an expression. -/
def AllSupported : RunFilterExpr → Prop
  | .condition c => Supported c
  | .and left right | .or left right => AllSupported left ∧ AllSupported right

theorem appendRunFilterExprSql_writes {e : RunFilterExpr} (h : AllSupported e) :
    Writes (appendRunFilterExprSql e) (writeRun (RunListing.appendRunFilterExprSql e)) := by
  induction e with
  | condition c => exact appendRunFilterConditionSql_writes h
  | and left right ihl ihr | or left right ihl ihr =>
      intro ps
      simp only [appendRunFilterExprSql, ihl h.1 ps, ihr h.2 (ps ++ _)]
      simp [RunListing.appendRunFilterExprSql, writeRun, writeCondition, sqlText, Piece.sql, values, Piece.values,
        String.append_assoc]

/-- Both statements end in the same written text behind their own heads. -/
structure Says (b : ListSql) (pieces : List (Piece SqlValue)) : Prop where
  sql : b.sql = selectSql ++ sqlText pieces
  countSql : b.countSql = RunListSql.countSql ++ sqlText pieces
  paramsVec : b.paramsVec = values pieces

variable {b : ListSql} {ps qs : List (Piece SqlValue)}

theorem Says.pushStr (h : Says b ps) (qs : List (Piece SqlValue)) :
    Says (b.pushStr (sqlText qs) (values qs)) (ps ++ qs) := by
  constructor
  · rw [ListSql.pushStr, h.sql, sqlText_append, String.append_assoc]
  · rw [ListSql.pushStr, h.countSql, sqlText_append, String.append_assoc]
  · rw [ListSql.pushStr, h.paramsVec, values_append]

theorem writeClauses_append (cs ds : List RunCondition) :
    writeClauses (cs ++ ds) = writeClauses cs ++ writeClauses ds :=
  List.flatMap_append

theorem writeClauses_singleton (c : RunCondition) : writeClauses [c] = .text " AND " :: writeRun c := by
  simp [writeClauses]

theorem Says.optional {ν : Type} {pushed : ListSql → ν → ListSql} {clause : ν → RunCondition}
    {cs : List RunCondition}
    (h : Says b (writeClauses cs)) (o : Option ν)
    (hpush : ∀ v ∈ o, Says (pushed b v) (writeClauses (cs ++ [clause v]))) :
    Says (o.elim b (pushed b)) (writeClauses (cs ++ (o.map clause).toList)) := by
  cases o with
  | none => simpa using h
  | some v => exact hpush v rfl

theorem pushComparison_stated {cs : List RunCondition} (h : Says b (writeClauses cs)) (column : RunColumn)
    (op : Comparison) {text : String} (htext : text = " AND " ++ columnSql column ++ comparisonSql op ++ "?")
    (o : Option String) :
    Says (o.elim b (pushComparison text b)) (writeClauses (cs ++ (o.map (compareColumn column op)).toList)) := by
  refine h.optional o (fun value _ => ?_)
  rw [writeClauses_append, writeClauses_singleton]
  have hpush := h.pushStr (.text " AND " :: writeRun (compareColumn column op value))
  simpa [pushComparison, htext, writeRun, compareColumn, writeCondition, writeAtom, writeTest, sqlText,
    Piece.sql, values, Piece.values, String.append_assoc] using hpush

theorem pushProject_stated {cs : List RunCondition} (h : Says b (writeClauses cs)) (p : String) :
    Says (pushProject b p) (writeClauses (cs ++ [isProject p])) := by
  rw [writeClauses_append, writeClauses_singleton]
  exact h.pushStr (.text " AND " :: writeRun (isProject p))

theorem pushQuery_stated {cs : List RunCondition} (h : Says b (writeClauses cs)) (q : String) :
    Says (pushQuery b q) (writeClauses (cs ++ [.either (columnLike .name q) (columnLike .id q)])) := by
  rw [writeClauses_append, writeClauses_singleton]
  exact h.pushStr (.text " AND " :: writeRun (.either (columnLike .name q) (columnLike .id q)))

theorem pushKey_stated (h : Says b ps) (table : MetadataTable) (key : String) (legacyKey : Option String) :
    Says (pushKey table key b legacyKey)
      (ps ++ writeCondition (writeTest (metadataColumn table)) (keyCondition key legacyKey)) := by
  have hpush := h.pushStr (writeCondition (writeTest (metadataColumn table)) (keyCondition key legacyKey))
  cases legacyKey <;> cases table <;> exact hpush

theorem pushMetadataFilter_stated {cs : List RunCondition} (h : Says b (writeClauses cs)) (table : MetadataTable)
    (filter : MetadataFilter) :
    Says (pushMetadataFilter table b filter) (writeClauses (cs ++ [metadataFilterSql table filter])) := by
  rw [writeClauses_append, writeClauses_singleton]
  have hhead : Says (b.pushStr (" AND EXISTS (SELECT 1 FROM " ++ rowsOfRun table ++ " AND ") []) (writeClauses cs ++
      [.text " AND ", .text "EXISTS (SELECT 1 FROM ", .text (rowsOfRun table), .text " AND "]) := by
    have hpush := h.pushStr [.text " AND ", .text "EXISTS (SELECT 1 FROM ", .text (rowsOfRun table), .text " AND "]
    cases table <;> exact hpush
  have hkey := pushKey_stated hhead table filter.key filter.legacyKey
  cases hvalue : filter.value with
  | none =>
      have hclose := hkey.pushStr [.text ")"]
      cases hlegacy : filter.legacyKey <;>
        simpa [pushMetadataFilter, metadataFilterSql, hvalue, hlegacy, keyCondition, writeRun,
          writeCondition, writeAtom, writeConjunction, sqlText, Piece.sql, values, Piece.values] using hclose
  | some value =>
      have hclose := (hkey.pushStr (.text " AND " ::
        writeTest (metadataColumn table) (.compare .value .eq value))).pushStr
        [.text ")"]
      simpa [pushMetadataFilter, pushFilterValue, metadataFilterSql, hvalue, writeRun, writeCondition, writeAtom,
        writeConjunction, writeTest, comparisonSql, sqlText, Piece.sql, values, Piece.values, String.append_assoc]
        using hclose

theorem pushMetadataFilters_stated {cs : List RunCondition} (h : Says b (writeClauses cs)) (table : MetadataTable)
    (filters : List MetadataFilter) :
    Says (filters.foldl (pushMetadataFilter table) b) (writeClauses (cs ++ filters.map (metadataFilterSql table))) := by
  induction filters generalizing b cs with
  | nil => simpa using h
  | cons filter filters ih => simpa using ih (pushMetadataFilter_stated h table filter)

theorem pushExpr_stated {cs : List RunCondition} (h : Says b (writeClauses cs)) {e : RunFilterExpr}
    (he : AllSupported e) :
    Says (pushExpr b e) (writeClauses (cs ++ [RunListing.appendRunFilterExprSql e])) := by
  rw [writeClauses_append, writeClauses_singleton]
  have hpush := h.pushStr (.text " AND " :: writeRun (RunListing.appendRunFilterExprSql e))
  rw [pushExpr, appendRunFilterExprSql_writes he]
  simpa [ListSql.pushStr, sqlText, Piece.sql, values, Piece.values, String.append_assoc] using hpush

theorem pushFilters_stated {args : RunListArgs} (h : ∀ e ∈ args.filterExpr, AllSupported e) :
    Says (pushFilters args) (writeClauses args.conditions) := by
  have hstart : Says ⟨selectSql, countSql, []⟩ (writeClauses []) := by
    constructor <;> simp [writeClauses, sqlText, values]
  have hproject := hstart.optional args.project (fun p _ => pushProject_stated hstart p)
  have howner := pushComparison_stated hproject .createdByUserId .eq rfl args.ownerUserId
  have hstatus := pushComparison_stated howner .status .eq rfl args.status
  have hquery := hstatus.optional args.query (fun q _ => pushQuery_stated hstatus q)
  have hname := pushComparison_stated hquery .name .eq rfl args.name
  have hafter := pushComparison_stated hname .createdAt .ge rfl args.createdAfter
  have hbefore := pushComparison_stated hafter .createdAt .le rfl args.createdBefore
  have htags := pushMetadataFilters_stated hbefore .tags args.tagFilters
  have hparams := pushMetadataFilters_stated htags .params args.paramFilters
  exact hparams.optional args.filterExpr (fun e he => pushExpr_stated hparams (h e he))

/-! No written text has a placeholder of its own. -/

section Literals

variable {κ α : Type}

theorem literal_writeTest {column : κ → String}
    (h : ∀ c, (Piece.text (column c) : Piece SqlValue).isLiteral = true)
    (t : Test κ) : Literal (writeTest column t) := by
  cases t with
  | compare c op value =>
      have hop : (Piece.text (comparisonSql op) : Piece SqlValue).isLiteral = true := by
        cases op <;> exact isLiteral_ofList (by decide)
      simp [writeTest, literal_cons, literal_nil, h, hop]
  | like c pattern =>
      have hlike : (Piece.text " LIKE " : Piece SqlValue).isLiteral = true := isLiteral_ofList (by decide)
      simp [writeTest, literal_cons, literal_nil, h, hlike]
  | isNull c =>
      have hnull : (Piece.text " IS NULL" : Piece SqlValue).isLiteral = true := isLiteral_ofList (by decide)
      simp [writeTest, literal_cons, literal_nil, h, hnull]

theorem literal_writeCondition {atom : α → List (Piece SqlValue)} (h : ∀ a, Literal (atom a)) (c : Condition α) :
    Literal (writeCondition atom c) := by
  induction c with
  | constant value => cases value <;> exact List.forall_mem_singleton.mpr (isLiteral_ofList (by decide))
  | atom a => exact h a
  | both left right ihl ihr | either left right ihl ihr =>
      refine literal_append.mpr ⟨literal_cons.mpr
        ⟨isLiteral_ofList (by decide), literal_append.mpr ⟨ihl, ?_⟩⟩, ?_⟩
      · exact literal_cons.mpr ⟨isLiteral_ofList (by decide), ihr⟩
      · exact literal_cons.mpr ⟨isLiteral_ofList (by decide), literal_nil⟩

theorem literal_writeConjunction {atom : α → List (Piece SqlValue)} (h : ∀ a, Literal (atom a))
    (c : Condition α) :
    Literal (writeConjunction atom c) := by
  cases c with
  | both left right =>
      exact literal_append.mpr ⟨literal_writeCondition h left,
        literal_cons.mpr ⟨isLiteral_ofList (by decide), literal_writeCondition h right⟩⟩
  | constant value => exact literal_writeCondition h _
  | atom a => exact literal_writeCondition h _
  | either left right => exact literal_writeCondition h _

theorem literal_writeAtom (a : RunAtom) : Literal (writeAtom a) := by
  cases a with
  | test t => exact literal_writeTest (fun c => by cases c <;> exact isLiteral_ofList (by decide)) t
  | found present table c =>
      have hcolumn : ∀ c, (Piece.text (metadataColumn table c) : Piece SqlValue).isLiteral = true := by
        intro c
        cases table <;> cases c <;> exact isLiteral_ofList (by decide)
      have htable : (Piece.text (rowsOfRun table) : Piece SqlValue).isLiteral = true := by
        cases table <;> exact isLiteral_ofList (by decide)
      have hcondition := literal_writeConjunction (literal_writeTest hcolumn) c
      refine literal_append.mpr ⟨?_, literal_cons.mpr ⟨isLiteral_ofList (by decide), literal_nil⟩⟩
      refine literal_cons.mpr ⟨by cases present <;> exact isLiteral_ofList (by decide),
        literal_cons.mpr ⟨htable, ?_⟩⟩
      exact literal_cons.mpr ⟨isLiteral_ofList (by decide), hcondition⟩

theorem literal_writeClauses (cs : List RunCondition) : Literal (writeClauses cs) := by
  induction cs with
  | nil => exact literal_nil
  | cons c cs ih =>
      exact literal_append.mpr ⟨literal_cons.mpr
        ⟨isLiteral_ofList (by decide), literal_writeCondition literal_writeAtom c⟩, ih⟩

end Literals

/-! The two statements. -/

/-- The count statement with its values in place. -/
def writeCount (args : RunListArgs) : List (Piece SqlValue) := .text countSql :: writeClauses args.conditions

/-- The select statement with its values in place. -/
def writeSelect (args : RunListArgs) : List (Piece SqlValue) :=
  .text selectSql :: writeClauses args.conditions ++
    [writeOrder (orderTerms args.sortField args.sortOrder), .text " LIMIT ", .bound (.integer (min args.limit i64Max)),
      .text " OFFSET ", .bound (.integer (min args.offset i64Max))]

theorem isLiteral_selectSql : (Piece.text selectSql : Piece SqlValue).isLiteral = true := by
  repeat apply isLiteral_append
  all_goals exact isLiteral_ofList (by decide)

theorem isLiteral_order (term : OrderTerm) : (Piece.text term.sql : Piece SqlValue).isLiteral = true := by
  obtain ⟨column, order⟩ := term
  refine isLiteral_append (isLiteral_append ?_ (isLiteral_ofList (by decide))) ?_
  · cases column with
    | field f => cases f <;> exact isLiteral_ofList (by decide)
    | id => exact isLiteral_ofList (by decide)
  · cases order <;> exact isLiteral_ofList (by decide)

theorem isLiteral_intercalate (terms : List OrderTerm) :
    (Piece.text (", ".intercalate (terms.map OrderTerm.sql)) : Piece SqlValue).isLiteral = true := by
  induction terms with
  | nil => exact isLiteral_ofList (by decide)
  | cons term terms ih =>
      cases terms with
      | nil => simpa using isLiteral_order term
      | cons next terms =>
          rw [List.map_cons, List.map_cons, String.intercalate_cons_cons]
          exact isLiteral_append (isLiteral_append (isLiteral_order term) (isLiteral_ofList (by decide))) ih

theorem appendRunOrderSql_eq (sql : String) (field : RunListSortField) (order : RunListSortOrder) :
    appendRunOrderSql sql field order = sql ++ (writeOrder (orderTerms field order)).sql := by
  by_cases hfield : field = .createdAt <;> cases order <;>
    simp [appendRunOrderSql, orderTerms, hfield, writeOrder, Piece.sql, OrderTerm.sql, OrderColumn.sql, fieldSql,
      directionSql, String.intercalate_cons_cons, String.append_assoc]

/-- A statement binds each of its values where it is written, and none is left. -/
def Binds (statement : Statement) (pieces : List (Piece SqlValue)) : Prop :=
  bindValues statement.sql.toList statement.params = some (spelled pieces)

theorem binds_of_eq {statement : Statement} {pieces : List (Piece SqlValue)}
    (hsql : statement.sql = sqlText pieces)
    (hparams : statement.params = values pieces) (h : Literal pieces) : Binds statement pieces := by
  rw [Binds, hsql, hparams]
  exact bindValues_sqlText h

theorem countStatement_binds {args : RunListArgs} (h : ∀ e ∈ args.filterExpr, AllSupported e) :
    Binds (countStatement args) (writeCount args) := by
  have hsays := pushFilters_stated h
  apply binds_of_eq
  · rw [writeCount, sqlText, Piece.sql]
    exact hsays.countSql
  · rw [countStatement, hsays.paramsVec, writeCount]
    rfl
  · exact literal_cons.mpr ⟨isLiteral_ofList (by decide), literal_writeClauses _⟩

theorem selectStatement_binds {args : RunListArgs} (h : ∀ e ∈ args.filterExpr, AllSupported e) :
    Binds (selectStatement args) (writeSelect args) := by
  have hsays := pushFilters_stated h
  apply binds_of_eq
  · simp only [selectStatement, appendRunOrderSql_eq, hsays.sql]
    simp [writeSelect, sqlText, Piece.sql, String.append_assoc]
  · simp only [selectStatement, hsays.paramsVec]
    simp [writeSelect, writeOrder, values, Piece.values]
  · refine literal_append.mpr ⟨literal_cons.mpr ⟨isLiteral_selectSql, literal_writeClauses _⟩, ?_⟩
    refine literal_cons.mpr ⟨isLiteral_append (isLiteral_ofList (by decide)) (isLiteral_intercalate _),
      literal_cons.mpr ⟨isLiteral_ofList (by decide), literal_cons.mpr ⟨rfl, ?_⟩⟩⟩
    exact literal_cons.mpr ⟨isLiteral_ofList (by decide), literal_cons.mpr ⟨rfl, literal_nil⟩⟩

/-! The order that the text asks for is the one the rows are sorted by. -/

theorem appendRunOrderSql_compareBy (env : ListEnv) (field : RunListSortField) (order : RunListSortOrder)
    (a b : JoinedRow) :
    RunListing.appendRunOrderSql env field order a b = compareBy env a b (orderTerms field order) := by
  have hswap : Ord.compare b.times.createdAt a.times.createdAt =
      (Ord.compare a.times.createdAt b.times.createdAt).swap :=
    Std.OrientedOrd.eq_swap
  by_cases hfield : field = .createdAt
  · simp [RunListing.appendRunOrderSql, orderTerms, hfield, compareBy, OrderTerm.compare, OrderColumn.compare]
  · simp [RunListing.appendRunOrderSql, orderTerms, hfield, compareBy, OrderTerm.compare,
      OrderColumn.compare, compareField, hswap, directed, Ordering.then_assoc]

/-! The operators of an expression that the parser answers with. -/

theorem supported_textCondition {target : RunFilterTarget} {name value : String} {op : RunFilterOperator}
    {c : RunFilterCondition} (h : textCondition target name op value = .ok c) : Supported c := by
  rw [textCondition] at h
  split at h
  · rename_i hop
    obtain rfl := Except.ok.inj h
    cases target <;> first | exact hop | trivial
  · cases h

theorem supported_metadataFilterCondition {target : String → Option String → RunFilterTarget}
    {name defaultNamespace rawKey value : String} {op : RunFilterOperator} {c : RunFilterCondition}
    (h : metadataFilterCondition target name defaultNamespace rawKey op value = .ok c) : Supported c := by
  rw [metadataFilterCondition] at h
  split at h
  · rename_i hop
    obtain ⟨⟨key, legacyKey⟩, _, hc⟩ := Fallible.bind_eq_ok.mp h
    obtain rfl := Except.ok.inj hc
    rw [Supported]
    split <;> first | exact hop | trivial
  · cases h

theorem supported_createdAtCondition {chrono : Chrono} {op : RunFilterOperator} {value : String}
    {c : RunFilterCondition} (h : createdAtCondition chrono op value = .ok c) : Supported c := by
  rw [createdAtCondition] at h
  split at h
  · cases h
  · split at h
    · obtain rfl := Except.ok.inj h
      trivial
    · cases h

theorem supported_keyedCondition {fieldRaw field value : String} {op : RunFilterOperator} {c : RunFilterCondition}
    (h : keyedCondition fieldRaw field op value = .ok c) : Supported c := by
  rw [keyedCondition] at h
  split at h
  · exact supported_metadataFilterCondition h
  · split at h
    · exact supported_metadataFilterCondition h
    · cases h

theorem supported_build {chrono : Chrono} {field op value : String} {c : RunFilterCondition}
    (h : buildRunFilterCondition chrono field op value = .ok c) : Supported c := by
  obtain ⟨operator, _, h⟩ := Fallible.bind_eq_ok.mp h
  dsimp only at h
  repeat' split at h
  · cases h
  · exact supported_textCondition h
  · exact supported_textCondition h
  · exact supported_textCondition h
  · exact supported_textCondition h
  · exact supported_textCondition h
  · exact supported_createdAtCondition h
  · exact supported_keyedCondition h

theorem allSupported_of_derives {chrono : Chrono} {level : FilterGrammar.Level} {tokens : List RunFilterToken}
    {e : RunFilterExpr} (h : FilterGrammar.Derives chrono level tokens e) : AllSupported e := by
  induction h with
  | ofAnd h ih => exact ih
  | ofPrim h ih => exact ih
  | paren h ih => exact ih
  | or left right ihl ihr => exact ⟨ihl, ihr⟩
  | and left right ihl ihr => exact ⟨ihl, ihr⟩
  | condition htoken hbuild => exact supported_build hbuild

theorem allSupported_parseRunFilterExpr {chrono : Chrono} {raw : Option String} {e : RunFilterExpr}
    (h : parseRunFilterExpr chrono raw = .ok (some e)) : AllSupported e := by
  cases raw with
  | none => cases h
  | some raw =>
      rw [parseRunFilterExpr] at h
      repeat' split at h
      all_goals try cases h
      rename_i tokens _ _ _ hparse
      obtain ⟨⟨f, rest⟩, hread, hend⟩ := Fallible.bind_eq_ok.mp hparse
      obtain ⟨ts, _, hts⟩ := FilterGrammar.parseOrExpression_sound _ _ _ _ hread
      split at hend
      · obtain rfl := Except.ok.inj hend
        rename_i heq
        obtain ⟨rfl, rfl⟩ := Prod.mk.inj heq
        exact allSupported_of_derives hts
      · cases hend

end MLRunX.RunListSql
