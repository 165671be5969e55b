import MLRunX.RunListSql
import MLRunX.SqlTokens

namespace MLRunX.FilterMeaning

open Conditions Connectives Placeholders RunFilter RunListSql SqlTokens
open RunListing hiding appendRunFilterConditionSql appendRunFilterExprSql appendRunOrderSql

/-! The text of a compiled expression, and its value. -/

def textOf (e : RunFilterExpr) : String := (appendRunFilterExprSql e []).1

def paramsOf (e : RunFilterExpr) : ParamsVec := (appendRunFilterExprSql e []).2

variable {τ : Type}

/-- What a condition is worth when its placeholders stand for its values, if it has
as many of them. -/
def sqlValue (L : Logic (Word SqlValue) τ) (sql : String) (paramsVec : ParamsVec) : Option τ :=
  (bindValues sql.toList paramsVec).map (fun bound => L.value (tokens bound))

/-- The values of the single conditions, joined along the tree. -/
def exprValue (L : Logic (Word SqlValue) τ) : RunFilterExpr → Option τ
  | .condition c => sqlValue L (appendRunFilterConditionSql c []).1 (appendRunFilterConditionSql c []).2
  | .and left right => Option.map₂ L.both (exprValue L left) (exprValue L right)
  | .or left right => Option.map₂ L.either (exprValue L left) (exprValue L right)

/-- An expression with nothing in it that its writer chose, besides its shape. -/
def blankTarget : RunFilterTarget → RunFilterTarget
  | .tag _ legacyKey => .tag "" (legacyKey.map (fun _ => ""))
  | .param _ legacyKey => .param "" (legacyKey.map (fun _ => ""))
  | target => target

def blank : RunFilterExpr → RunFilterExpr
  | .condition c => .condition ⟨blankTarget c.target, c.op, ""⟩
  | .and left right => .and (blank left) (blank right)
  | .or left right => .or (blank left) (blank right)

/-- The text behind WHERE in the statement that counts the runs. -/
def countWhere (args : RunListArgs) : String :=
  String.ofList ((pushFilters args).countSql.toList.drop
    "SELECT COUNT(*) FROM runs r LEFT JOIN projects p ON r.project_id = p.id WHERE ".toList.length)

/-- The text behind WHERE in the statement that selects them, in front of the order. -/
def selectWhere (args : RunListArgs) : String :=
  String.ofList ((pushFilters args).sql.toList.drop (selectSql.toList.length - "1=1".toList.length))

/-! The tokens of what is written. -/

section Writing

variable {κ α : Type}

abbrev pieceTokens (pieces : List (Piece SqlValue)) : List (Token (Word SqlValue)) := tokens (spelled pieces)

theorem spelled_append (ps qs : List (Piece SqlValue)) : spelled (ps ++ qs) = spelled ps ++ spelled qs :=
  List.flatMap_append

theorem spelled_cons (p : Piece SqlValue) (ps : List (Piece SqlValue)) :
    spelled (p :: ps) = p.spelled ++ spelled ps := rfl

theorem spelled_singleton (p : Piece SqlValue) : spelled [p] = p.spelled := by
  rw [spelled_cons]
  exact List.append_nil _

theorem pieceTokens_joined {sep : String} {token : Token (Word SqlValue)}
    (hopens : ∀ ds, (((Piece.text sep : Piece SqlValue).spelled) ++ ds).head?.all alone = true)
    (hcloses : ((Piece.text sep : Piece SqlValue).spelled).getLast?.all alone = true)
    (htoken : tokens ((Piece.text sep : Piece SqlValue).spelled) = [token]) (ps qs : List (Piece SqlValue)) :
    pieceTokens (ps ++ .text sep :: qs) = pieceTokens ps ++ token :: pieceTokens qs := by
  rw [pieceTokens, spelled_append, spelled_cons, tokens_append_of_opens _ (hopens _),
    tokens_append_of_closes hcloses, htoken]
  rfl

theorem pieceTokens_and (ps qs : List (Piece SqlValue)) :
    pieceTokens (ps ++ .text " AND " :: qs) = pieceTokens ps ++ .and :: pieceTokens qs :=
  pieceTokens_joined (fun _ => rfl) rfl rfl ps qs

theorem pieceTokens_or (ps qs : List (Piece SqlValue)) :
    pieceTokens (ps ++ .text " OR " :: qs) = pieceTokens ps ++ .or :: pieceTokens qs :=
  pieceTokens_joined (fun _ => rfl) rfl rfl ps qs

theorem pieceTokens_group (ps : List (Piece SqlValue)) :
    pieceTokens (.text "(" :: ps ++ [.text ")"]) = .lParen :: pieceTokens ps ++ [.rParen] := by
  rw [List.cons_append, pieceTokens, spelled_cons, spelled_append, spelled_singleton, tokens_append_of_closes rfl,
    tokens_append_of_opens _ rfl]
  rfl

/-- A column is a word. -/
def Named (column : κ → String) : Prop :=
  ∀ c, tokens ((Piece.text (column c) : Piece SqlValue).spelled) = [.word (.text (column c))]

theorem named_columnSql : Named columnSql := by
  intro c
  cases c <;> rfl

theorem named_metadataColumn (table : MetadataTable) : Named (metadataColumn table) := by
  intro c
  cases table <;> cases c <;> rfl

theorem flat_column {column : κ → String} (h : Named column) (c : κ) {ds : List (Char ⊕ SqlValue)}
    (hopens : ds.head?.all alone = true) (hds : Flat (tokens ds)) :
    Flat (tokens ((Piece.text (column c) : Piece SqlValue).spelled ++ ds)) := by
  rw [tokens_append_of_opens _ hopens, h c]
  exact .word hds

theorem flat_writeTest {column : κ → String} (h : Named column) (t : Test κ) :
    Flat (pieceTokens (writeTest column t)) := by
  rw [pieceTokens]
  cases t with
  | compare c op value =>
      rw [writeTest, spelled_cons, spelled_cons, spelled_singleton]
      cases op <;> exact flat_column h c rfl (.word (.word .nil))
  | like c pattern =>
      rw [writeTest, spelled_cons, spelled_cons, spelled_singleton]
      exact flat_column h c rfl (.word (.word .nil))
  | isNull c =>
      rw [writeTest, spelled_cons, spelled_singleton]
      exact flat_column h c rfl (.word (.word .nil))

variable {atom : α → List (Piece SqlValue)}

theorem pieceTokens_both (left right : Condition α) :
    pieceTokens (writeCondition atom (.both left right)) =
      .lParen :: (pieceTokens (writeCondition atom left) ++ .and :: pieceTokens (writeCondition atom right)) ++
        [.rParen] := by
  rw [writeCondition, List.cons_append, pieceTokens_group, pieceTokens_and]

theorem pieceTokens_either (left right : Condition α) :
    pieceTokens (writeCondition atom (.either left right)) =
      .lParen :: (pieceTokens (writeCondition atom left) ++ .or :: pieceTokens (writeCondition atom right)) ++
        [.rParen] := by
  rw [writeCondition, List.cons_append, pieceTokens_group, pieceTokens_or]

theorem flat_writeCondition (h : ∀ a, Flat (pieceTokens (atom a))) (c : Condition α) :
    Flat (pieceTokens (writeCondition atom c)) := by
  induction c with
  | constant value => cases value <;> exact .word (.word (.word .nil))
  | atom a => exact h a
  | both left right ihl ihr =>
      rw [pieceTokens_both]
      exact .group (ihl.balanced.append (.and ihr.balanced)) .nil
  | either left right ihl ihr =>
      rw [pieceTokens_either]
      exact .group (ihl.balanced.append (.or ihr.balanced)) .nil

theorem balanced_writeConjunction (h : ∀ a, Flat (pieceTokens (atom a))) (c : Condition α) :
    Balanced (pieceTokens (writeConjunction atom c)) := by
  cases c with
  | both left right =>
      rw [writeConjunction, pieceTokens_and]
      exact (flat_writeCondition h left).balanced.append (.and (flat_writeCondition h right).balanced)
  | constant value => exact (flat_writeCondition h (.constant value)).balanced
  | atom a => exact (flat_writeCondition h (.atom a)).balanced
  | either left right => exact (flat_writeCondition h (.either left right)).balanced

theorem flat_writeAtom (a : RunAtom) : Flat (pieceTokens (writeAtom a)) := by
  cases a with
  | test t => exact flat_writeTest named_columnSql t
  | found present table c =>
      have hinner := balanced_writeConjunction (flat_writeTest (named_metadataColumn table)) c
      have htable : Balanced (pieceTokens [.text (rowsOfRun table)]) := by
        cases table <;> exact .word (.word (.word (.word (.word (.word .nil)))))
      have hrows := htable.append (.and hinner)
      rw [← pieceTokens_and, List.singleton_append] at hrows
      rw [writeAtom, pieceTokens, List.cons_append, spelled_cons, List.cons_append, List.cons_append,
        ← List.cons_append, ← List.cons_append, spelled_append]
      cases present with
      | true =>
          rw [if_pos rfl, tokens_append_of_closes rfl, spelled_singleton, tokens_append_of_opens _ rfl]
          exact .word (.group (.word (.word (.word hrows))) .nil)
      | false =>
          rw [if_neg Bool.false_ne_true, tokens_append_of_closes rfl, spelled_singleton,
            tokens_append_of_opens _ rfl]
          exact .word (.word (.group (.word (.word (.word hrows))) .nil))

theorem flat_writeRun (c : RunCondition) : Flat (pieceTokens (writeRun c)) := flat_writeCondition flat_writeAtom c

end Writing

/-! The values of what is written. -/

section Values

variable {L : Logic (Word SqlValue) τ}

theorem value_both (left right : RunCondition) :
    L.value (pieceTokens (writeRun (.both left right))) =
      L.both (L.value (pieceTokens (writeRun left))) (L.value (pieceTokens (writeRun right))) := by
  have hleft := flat_writeRun left
  have hright := flat_writeRun right
  calc L.value (pieceTokens (writeRun (.both left right)))
    _ = _ := congrArg L.value (pieceTokens_both left right)
    _ = _ := value_group (hleft.balanced.append (.and hright.balanced))
    _ = _ := value_and hleft hright

theorem value_either (left right : RunCondition) :
    L.value (pieceTokens (writeRun (.either left right))) =
      L.either (L.value (pieceTokens (writeRun left))) (L.value (pieceTokens (writeRun right))) := by
  have hleft := flat_writeRun left
  have hright := flat_writeRun right
  calc L.value (pieceTokens (writeRun (.either left right)))
    _ = _ := congrArg L.value (pieceTokens_either left right)
    _ = _ := value_group (hleft.balanced.append (.or hright.balanced))
    _ = _ := value_or hleft hright

theorem pieceTokens_clauses (first : List (Piece SqlValue)) (cs : List RunCondition) :
    pieceTokens (first ++ writeClauses cs) =
      joinedByAnd (pieceTokens first) (cs.map (fun c => pieceTokens (writeRun c))) := by
  induction cs generalizing first with
  | nil => simp [writeClauses, joinedByAnd]
  | cons c cs ih =>
      have hsplit : first ++ writeClauses (c :: cs) =
          (first ++ .text " AND " :: writeRun c) ++ writeClauses cs := by
        simp [writeClauses]
      rw [hsplit, ih, pieceTokens_and]
      simp [joinedByAnd]

theorem sqlValue_written {pieces : List (Piece SqlValue)} (h : Literal pieces) :
    sqlValue L (sqlText pieces) (values pieces) = some (L.value (pieceTokens pieces)) := by
  rw [sqlValue, bindValues_sqlText h]
  rfl

end Values

/-! Compiling an expression. -/

/-- What is asked of a compiled expression: a value for every placeholder, in its
place and behind the values there were; no text that comes from the writer; and the
value that the tree says, also behind the other clauses of the listing. -/
structure Preserves (e : RunFilterExpr) : Prop where
  appended : ∀ paramsVec, appendRunFilterExprSql e paramsVec = (textOf e, paramsVec ++ paramsOf e)
  counted : (textOf e).toList.count '?' = (paramsOf e).length
  placed : bindValues (textOf e).toList (paramsOf e) = some (spelled (writeRun (RunListing.appendRunFilterExprSql e)))
  blind : textOf (blank e) = textOf e
  combined : ∀ (τ : Type) (L : Logic (Word SqlValue) τ),
    sqlValue L (textOf e) (paramsOf e) = exprValue L e ∧ (exprValue L e).isSome = true
  counting : ∀ (τ : Type) (L : Logic (Word SqlValue) τ) (args : RunListArgs), args.filterExpr = none →
    sqlValue L (countWhere { args with filterExpr := some e })
      (pushFilters { args with filterExpr := some e }).paramsVec =
      Option.map₂ L.both (sqlValue L (countWhere args) (pushFilters args).paramsVec)
        (sqlValue L (textOf e) (paramsOf e))
  selecting : ∀ args : RunListArgs, selectWhere { args with filterExpr := some e } =
    countWhere { args with filterExpr := some e }

theorem appendRunFilterConditionSql_eq (c : RunFilterCondition) (paramsVec : ParamsVec) :
    appendRunFilterConditionSql c paramsVec =
      ((appendRunFilterConditionSql c []).1, paramsVec ++ (appendRunFilterConditionSql c []).2) := by
  obtain ⟨target, op, value⟩ := c
  cases target with
  | project | owner | status | name | runId | createdAt =>
      cases op <;> simp [appendRunFilterConditionSql, projectSql, textColumnSql, createdAtSql, push,
        pushRunFilterPatternParam]
  | tag key legacyKey | param key legacyKey =>
      cases legacyKey <;> cases op <;> simp [appendRunFilterConditionSql, metadataSql, keySql, push,
        pushRunFilterPatternParam]

theorem appendRunFilterExprSql_eq (e : RunFilterExpr) (paramsVec : ParamsVec) :
    appendRunFilterExprSql e paramsVec = (textOf e, paramsVec ++ paramsOf e) := by
  rw [textOf, paramsOf]
  induction e generalizing paramsVec with
  | condition c => exact appendRunFilterConditionSql_eq c paramsVec
  | and left right ihl ihr | or left right ihl ihr =>
      simp only [appendRunFilterExprSql, ihl paramsVec, ihr (paramsVec ++ _),
        ihr (appendRunFilterExprSql left []).2, List.append_assoc]

theorem textOf_and (left right : RunFilterExpr) :
    textOf (.and left right) = "(" ++ textOf left ++ " AND " ++ textOf right ++ ")" := by
  simp only [textOf, appendRunFilterExprSql, appendRunFilterExprSql_eq right (appendRunFilterExprSql left []).2]

theorem textOf_or (left right : RunFilterExpr) :
    textOf (.or left right) = "(" ++ textOf left ++ " OR " ++ textOf right ++ ")" := by
  simp only [textOf, appendRunFilterExprSql, appendRunFilterExprSql_eq right (appendRunFilterExprSql left []).2]

theorem paramsOf_and (left right : RunFilterExpr) :
    paramsOf (.and left right) = paramsOf left ++ paramsOf right := by
  simp only [paramsOf, appendRunFilterExprSql, appendRunFilterExprSql_eq right (appendRunFilterExprSql left []).2]

theorem paramsOf_or (left right : RunFilterExpr) :
    paramsOf (.or left right) = paramsOf left ++ paramsOf right := by
  simp only [paramsOf, appendRunFilterExprSql, appendRunFilterExprSql_eq right (appendRunFilterExprSql left []).2]

theorem count_textOf (e : RunFilterExpr) :
    (textOf e).toList.count '?' ≤ (paramsOf e).length ∧
      ((textOf e).toList.count '?' = (paramsOf e).length → AllSupported e) := by
  have hnode : ∀ {word : String} {left right : RunFilterExpr}, word.toList.count '?' = 0 →
      ("(" ++ textOf left ++ word ++ textOf right ++ ")").toList.count '?' =
        (textOf left).toList.count '?' + (textOf right).toList.count '?' := by
    intro word left right hword
    simp [String.toList_append, List.count_append, hword]
  induction e with
  | condition c =>
      by_cases hc : Supported c
      · have hwrites := appendRunFilterConditionSql_writes hc []
        have hbind := bindValues_sqlText
          (literal_writeCondition literal_writeAtom (RunListing.appendRunFilterConditionSql c))
        have htext : textOf (.condition c) = sqlText (writeRun (RunListing.appendRunFilterConditionSql c)) :=
          congrArg Prod.fst hwrites
        have hparams : paramsOf (.condition c) = values (writeRun (RunListing.appendRunFilterConditionSql c)) :=
          congrArg Prod.snd hwrites
        rw [htext, hparams]
        exact ⟨Nat.le_of_eq (count_of_bindValues hbind), fun _ => hc⟩
      · obtain ⟨target, op, value⟩ := c
        have hunmarked : (textOf (.condition ⟨target, op, value⟩)).toList.count '?' = 0 ∧
            0 < (paramsOf (.condition ⟨target, op, value⟩)).length := by
          cases target with
          | tag key legacyKey | param key legacyKey =>
              cases op <;> first | exact absurd rfl hc | skip
              all_goals cases legacyKey <;> exact ⟨show "1=0".toList.count '?' = 0 by decide, Nat.succ_pos _⟩
          | _ => exact absurd trivial hc
        omega
  | and left right ihl ihr =>
      rw [textOf_and, paramsOf_and, hnode (by decide), List.length_append]
      exact ⟨by omega, fun h => ⟨ihl.2 (by omega), ihr.2 (by omega)⟩⟩
  | or left right ihl ihr =>
      rw [textOf_or, paramsOf_or, hnode (by decide), List.length_append]
      exact ⟨by omega, fun h => ⟨ihl.2 (by omega), ihr.2 (by omega)⟩⟩

theorem textOf_blank (e : RunFilterExpr) : textOf (blank e) = textOf e := by
  induction e with
  | condition c =>
      obtain ⟨target, op, value⟩ := c
      cases target with
      | tag key legacyKey | param key legacyKey => cases legacyKey <;> cases op <;> rfl
      | _ => cases op <;> rfl
  | and left right ihl ihr => rw [blank, textOf_and, textOf_and, ihl, ihr]
  | or left right ihl ihr => rw [blank, textOf_or, textOf_or, ihl, ihr]

section Supported

variable {e : RunFilterExpr} {L : Logic (Word SqlValue) τ}

theorem textOf_written (h : AllSupported e) :
    textOf e = sqlText (writeRun (RunListing.appendRunFilterExprSql e)) ∧
      paramsOf e = values (writeRun (RunListing.appendRunFilterExprSql e)) := by
  have hwrites := appendRunFilterExprSql_writes h []
  exact ⟨congrArg Prod.fst hwrites, congrArg Prod.snd hwrites⟩

theorem sqlValue_textOf (h : AllSupported e) :
    sqlValue L (textOf e) (paramsOf e) =
      some (L.value (pieceTokens (writeRun (RunListing.appendRunFilterExprSql e)))) := by
  obtain ⟨htext, hparams⟩ := textOf_written h
  rw [htext, hparams]
  exact sqlValue_written (literal_writeCondition literal_writeAtom _)

theorem exprValue_eq (h : AllSupported e) :
    exprValue L e = some (L.value (pieceTokens (writeRun (RunListing.appendRunFilterExprSql e)))) := by
  induction e with
  | condition c =>
      rw [← sqlValue_textOf h]
      rfl
  | and left right ihl ihr =>
      rw [exprValue, ihl h.1, ihr h.2]
      exact congrArg some (value_both _ _).symm
  | or left right ihl ihr =>
      rw [exprValue, ihl h.1, ihr h.2]
      exact congrArg some (value_either _ _).symm

theorem drop_front (front middle rest : String) :
    String.ofList ((front ++ middle ++ rest).toList.drop front.toList.length) = middle ++ rest := by
  rw [String.append_assoc, String.toList_append, List.drop_left, String.ofList_toList]

theorem countSql_split : countSql =
    "SELECT COUNT(*) FROM runs r LEFT JOIN projects p ON r.project_id = p.id WHERE " ++ "1=1" := by
  simp only [countSql, String.reduceAppend]

theorem selectSql_split : ∃ front, selectSql = front ++ "1=1" := by
  have hlast : "FROM runs r\n             LEFT JOIN projects p ON r.project_id = p.id\n             WHERE 1=1" =
      "FROM runs r\n             LEFT JOIN projects p ON r.project_id = p.id\n             WHERE " ++ "1=1" := by
    simp only [String.reduceAppend]
  exact ⟨_, (congrArg (_ ++ ·) hlast).trans String.append_assoc.symm⟩

theorem countWhere_eq {args : RunListArgs} (h : ∀ f ∈ args.filterExpr, AllSupported f) :
    countWhere args = sqlText (.text "1=1" :: writeClauses args.conditions) := by
  have hsql := (pushFilters_stated h).countSql.trans (congrArg (· ++ _) countSql_split)
  unfold countWhere
  rw [hsql]
  exact drop_front _ _ _

theorem selectWhere_eq {args : RunListArgs} (h : ∀ f ∈ args.filterExpr, AllSupported f) :
    selectWhere args = sqlText (.text "1=1" :: writeClauses args.conditions) := by
  obtain ⟨front, hfront⟩ := selectSql_split
  have hlength : selectSql.toList.length - "1=1".toList.length = front.toList.length := by
    rw [hfront, String.toList_append, List.length_append, Nat.add_sub_cancel]
  rw [selectWhere, (pushFilters_stated h).sql, hlength, hfront]
  exact drop_front _ _ _

theorem sqlValue_countWhere {args : RunListArgs} (h : ∀ f ∈ args.filterExpr, AllSupported f) :
    sqlValue L (countWhere args) (pushFilters args).paramsVec =
      some ((args.conditions.map (fun c => pieceTokens (writeRun c))).foldl (fun v part => L.both v (L.value part))
        (L.value (pieceTokens [.text "1=1"]))) := by
  have hliteral : Literal (.text "1=1" :: writeClauses args.conditions) :=
    literal_cons.mpr ⟨isLiteral_ofList (by decide), literal_writeClauses _⟩
  have hparams : (pushFilters args).paramsVec = values (.text "1=1" :: writeClauses args.conditions) := by
    rw [(pushFilters_stated h).paramsVec, values, values, List.flatMap_cons, Piece.values, List.nil_append]
  have hflat : Flat (pieceTokens [.text "1=1"]) := .word (.word (.word .nil))
  have hclauses := pieceTokens_clauses [.text "1=1"] args.conditions
  rw [List.singleton_append] at hclauses
  rw [countWhere_eq h, hparams, sqlValue_written hliteral, hclauses, value_joinedByAnd hflat]
  intro part hpart
  obtain ⟨c, -, rfl⟩ := List.mem_map.mp hpart
  exact flat_writeRun c

end Supported

/-- An expression is compiled faithfully if and only if metadata is compared in it by
equality, inequality and containment only. -/
theorem preserves_iff (e : RunFilterExpr) : Preserves e ↔ AllSupported e := by
  constructor
  · intro h
    exact (count_textOf e).2 h.counted
  · intro h
    have hplaced : bindValues (textOf e).toList (paramsOf e) =
        some (spelled (writeRun (RunListing.appendRunFilterExprSql e))) := by
      obtain ⟨htext, hparams⟩ := textOf_written h
      rw [htext, hparams]
      exact bindValues_sqlText (literal_writeCondition literal_writeAtom _)
    have hsome : ∀ args : RunListArgs, ∀ f ∈ ({ args with filterExpr := some e } : RunListArgs).filterExpr,
        AllSupported f := by
      intro args f hf
      rwa [← Option.some.inj hf]
    constructor
    · exact appendRunFilterExprSql_eq e
    · exact count_of_bindValues hplaced
    · exact hplaced
    · exact textOf_blank e
    · intro τ L
      rw [sqlValue_textOf h, exprValue_eq h]
      exact ⟨rfl, rfl⟩
    · intro τ L args hnone
      have hargs : ∀ f ∈ args.filterExpr, AllSupported f := by
        rw [hnone]
        exact fun f hf => absurd hf (Option.not_mem_none f)
      have hconditions : ({ args with filterExpr := some e } : RunListArgs).conditions =
          args.conditions ++ [RunListing.appendRunFilterExprSql e] := by
        simp [RunListArgs.conditions, hnone]
      rw [sqlValue_countWhere (hsome args), sqlValue_countWhere hargs, sqlValue_textOf h, hconditions,
        List.map_append, List.foldl_append]
      rfl
    · intro args
      rw [selectWhere_eq (hsome args), countWhere_eq (hsome args)]

theorem unplaced_key : ¬ ∀ e : RunFilterExpr, Preserves e := by
  intro h
  have hcounted := (h (.condition ⟨.tag "tags.team" (some "team"), .gt, "a"⟩)).counted
  revert hcounted
  decide

end MLRunX.FilterMeaning
