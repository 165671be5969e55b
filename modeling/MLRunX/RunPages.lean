import Mathlib.Data.Set.Card
import MLRunX.ListLimits
import MLRunX.Paging
import MLRunX.StableSort

namespace MLRunX.RunPages

open Auth Commands Conditions ListLimits PayloadHash RunFilter RunInit RunTables Runs Sqlite Statements Std Tables
  UiTables
open RunListing hiding appendRunFilterConditionSql appendRunFilterExprSql
open RunListSql hiding appendRunFilterConditionSql appendRunFilterExprSql appendRunOrderSql

/-! What the filters ask of a run, in terms of the stored rows. -/

def TextMeets (text : Option String) (value : String) : RunFilterOperator → Prop
  | .eq => text = some value
  | .notEq => ∃ t, text = some t ∧ t ≠ value
  | .contains => ∃ t, text = some t ∧ like s!"%{value}%" t = true
  | _ => False

def TimeMeets (time value : String) : RunFilterOperator → Prop
  | .eq => time = value
  | .notEq => time ≠ value
  | .gt => value < time
  | .gte => ¬ time < value
  | .lt => time < value
  | .lte => ¬ value < time
  | .contains => like s!"%{value}%" time = true

def ProjectMeets (row : JoinedRow) (value : String) : RunFilterOperator → Prop
  | .eq => row.run.projectId = value ∨ row.project.map ProjectRow.name = some value
  | .notEq => row.run.projectId ≠ value ∧ row.project.map ProjectRow.name ≠ some value
  | .contains => like s!"%{value}%" row.run.projectId = true ∨
      ∃ project, row.project = some project ∧ like s!"%{value}%" project.name = true
  | _ => False

def KeyMeets (key : String) (legacyKey : Option String) (pair : String × String) : Prop :=
  pair.1 = key ∨ legacyKey = some pair.1

def MetadataMeets (pairs : List (String × String)) (key : String) (legacyKey : Option String) (value : String) :
    RunFilterOperator → Prop
  | .eq => ∃ pair ∈ pairs, KeyMeets key legacyKey pair ∧ pair.2 = value
  | .notEq => ¬ ∃ pair ∈ pairs, KeyMeets key legacyKey pair ∧ pair.2 = value
  | .contains => ∃ pair ∈ pairs, KeyMeets key legacyKey pair ∧ like s!"%{value}%" pair.2 = true
  | _ => False

def ConditionMeets (db : Database) (row : JoinedRow) (c : RunFilterCondition) : Prop :=
  match c.target with
  | .project => ProjectMeets row c.value c.op
  | .owner => TextMeets row.run.createdByUserId c.value c.op
  | .status => TextMeets (some row.run.status) c.value c.op
  | .name => TextMeets row.run.name c.value c.op
  | .runId => TextMeets (some row.run.id) c.value c.op
  | .createdAt => TimeMeets row.times.createdAt c.value c.op
  | .tag key legacyKey => MetadataMeets (metadataOf db row.run.id .tags) key legacyKey c.value c.op
  | .param key legacyKey => MetadataMeets (metadataOf db row.run.id .params) key legacyKey c.value c.op

def ExprMeets (db : Database) (row : JoinedRow) : RunFilterExpr → Prop
  | .condition c => ConditionMeets db row c
  | .and left right => ExprMeets db row left ∧ ExprMeets db row right
  | .or left right => ExprMeets db row left ∨ ExprMeets db row right

def FilterMeets (pairs : List (String × String)) (filter : MetadataFilter) : Prop :=
  ∃ pair ∈ pairs, KeyMeets filter.key filter.legacyKey pair ∧ ∀ value ∈ filter.value, pair.2 = value

/-- The conjunction of all filters. -/
structure Satisfies (args : RunListArgs) (db : Database) (row : JoinedRow) : Prop where
  project : ∀ p ∈ args.project, ProjectMeets row p .eq
  owner : ∀ o ∈ args.ownerUserId, row.run.createdByUserId = some o
  status : ∀ st ∈ args.status, row.run.status = st
  query : ∀ q ∈ args.query, TextMeets row.run.name q .contains ∨ like s!"%{q}%" row.run.id = true
  name : ∀ n ∈ args.name, row.run.name = some n
  createdAfter : ∀ t ∈ args.createdAfter, ¬ row.times.createdAt < t
  createdBefore : ∀ t ∈ args.createdBefore, ¬ t < row.times.createdAt
  tags : ∀ filter ∈ args.tagFilters, FilterMeets (metadataOf db row.run.id .tags) filter
  params : ∀ filter ∈ args.paramFilters, FilterMeets (metadataOf db row.run.id .params) filter
  filter : ∀ e ∈ args.filterExpr, ExprMeets db row e

variable {db : Database} {row : JoinedRow}

theorem selects_compare {column : RunColumn} {op : Comparison} {value : String} :
    (compareColumn column op value).selects (RunAtom.truth db row) = true ↔
      ∃ text, column.read row = some text ∧ op.holds text value = true := by
  rw [compareColumn, selects_atom]
  simp [RunAtom.truth, Test.truth]

theorem selects_like {column : RunColumn} {value : String} :
    (columnLike column value).selects (RunAtom.truth db row) = true ↔
      ∃ text, column.read row = some text ∧ like s!"%{value}%" text = true := by
  rw [columnLike, selects_atom]
  simp [RunAtom.truth, Test.truth]

theorem not_selects_false : ¬ (Condition.constant false : RunCondition).selects (RunAtom.truth db row) = true :=
  Bool.false_ne_true

theorem textColumnCondition_selects {column : RunColumn} {value : String} (op : RunFilterOperator) :
    (textColumnCondition column value op).selects (RunAtom.truth db row) = true ↔
      TextMeets (column.read row) value op := by
  cases op with
  | eq => exact selects_compareColumn
  | notEq => simp [textColumnCondition, selects_compare, Comparison.holds, TextMeets]
  | contains => exact selects_like
  | gt | gte | lt | lte => exact iff_of_false not_selects_false id

theorem timeColumnCondition_selects {value : String} (op : RunFilterOperator) :
    (timeColumnCondition value op).selects (RunAtom.truth db row) = true ↔
      TimeMeets row.times.createdAt value op := by
  cases op <;> simp [timeColumnCondition, selects_compare, selects_like, Comparison.holds, TimeMeets, RunColumn.read]

theorem projectCondition_selects {value : String} (op : RunFilterOperator) :
    (projectCondition value op).selects (RunAtom.truth db row) = true ↔ ProjectMeets row value op := by
  cases op with
  | eq => simp [projectCondition, isProject, selects_either, selects_compareColumn, RunColumn.read, ProjectMeets]
  | notEq =>
      have hnull : (Condition.atom (RunAtom.test (.isNull .projectName))).selects (RunAtom.truth db row) = true ↔
          row.project = none := by
        rw [selects_atom]
        simp [RunAtom.truth, Test.truth, RunColumn.read]
      cases hproject : row.project <;>
        simp [projectCondition, selects_both, selects_either, selects_compare, hnull, Comparison.holds,
          RunColumn.read, ProjectMeets, hproject]
  | contains =>
      simp [projectCondition, selects_either, selects_like, RunColumn.read, ProjectMeets]
  | gt | gte | lt | lte => exact iff_of_false not_selects_false id

theorem keyCondition_selects {key : String} {legacyKey : Option String} {pair : String × String} :
    (keyCondition key legacyKey).selects (Test.truth (MetadataColumn.read pair)) = true ↔
      KeyMeets key legacyKey pair := by
  cases legacyKey with
  | none => simp [keyCondition, selects_atom, truth_compare_eq, MetadataColumn.read, KeyMeets]
  | some legacyKey =>
      rw [keyCondition, selects_either, selects_atom, selects_atom, truth_compare_eq, truth_compare_eq]
      simp [MetadataColumn.read, KeyMeets, eq_comm]

theorem found_selects {present : Bool} {table : MetadataTable} {c : Condition (Test MetadataColumn)} :
    (Condition.atom (RunAtom.found present table c)).selects (RunAtom.truth db row) = true ↔
      ((∃ pair ∈ metadataOf db row.run.id table, c.selects (Test.truth (MetadataColumn.read pair)) = true) ↔
        present = true) := by
  rw [selects_atom, RunAtom.truth, Option.some_inj, beq_iff_eq, Bool.eq_iff_iff, List.any_eq_true]

theorem metadataCondition_selects {table : MetadataTable} {key : String} {legacyKey : Option String}
    {value : String}
    (op : RunFilterOperator) :
    (metadataCondition table key legacyKey value op).selects (RunAtom.truth db row) = true ↔
      MetadataMeets (metadataOf db row.run.id table) key legacyKey value op := by
  cases op with
  | eq | notEq =>
      apply found_selects.trans
      simp [selects_both, keyCondition_selects, selects_atom, truth_compare_eq, MetadataColumn.read, MetadataMeets]
  | contains =>
      apply found_selects.trans
      simp [selects_both, keyCondition_selects, selects_atom, Test.truth, MetadataColumn.read, MetadataMeets]
  | gt | gte | lt | lte => exact iff_of_false not_selects_false id

theorem condition_selects (c : RunFilterCondition) :
    (RunListing.appendRunFilterConditionSql c).selects (RunAtom.truth db row) = true ↔
      ConditionMeets db row c := by
  obtain ⟨target, op, value⟩ := c
  cases target with
  | project => exact projectCondition_selects op
  | owner => exact textColumnCondition_selects op
  | status => exact textColumnCondition_selects op
  | name => exact textColumnCondition_selects op
  | runId => exact textColumnCondition_selects op
  | createdAt => exact timeColumnCondition_selects op
  | tag key legacyKey => exact metadataCondition_selects op
  | param key legacyKey => exact metadataCondition_selects op

theorem expr_selects (e : RunFilterExpr) :
    (RunListing.appendRunFilterExprSql e).selects (RunAtom.truth db row) = true ↔ ExprMeets db row e := by
  induction e with
  | condition c => exact condition_selects c
  | and left right ihl ihr => exact selects_both.trans (and_congr ihl ihr)
  | or left right ihl ihr => exact selects_either.trans (or_congr ihl ihr)

theorem filter_selects {table : MetadataTable} (filter : MetadataFilter) :
    (metadataFilterSql table filter).selects (RunAtom.truth db row) = true ↔
      FilterMeets (metadataOf db row.run.id table) filter := by
  rw [metadataFilterSql, found_selects, FilterMeets]
  cases filter.value with
  | none => simp [keyCondition_selects]
  | some value => simp [selects_both, keyCondition_selects, selects_atom, truth_compare_eq, MetadataColumn.read]

variable {args : RunListArgs} {s : MetadataStore}

theorem forall_mem_toList_map {ν : Type} {o : Option ν} {clause : ν → RunCondition} {P : RunCondition → Prop} :
    (∀ c ∈ (o.map clause).toList, P c) ↔ ∀ v ∈ o, P (clause v) := by
  cases o <;> simp

theorem conditions_select :
    (∀ c ∈ args.conditions, c.selects (RunAtom.truth db row) = true) ↔ Satisfies args db row := by
  have hquery : ∀ q, (Condition.either (columnLike .name q) (columnLike .id q)).selects (RunAtom.truth db row) =
    true ↔
      TextMeets row.run.name q .contains ∨ like s!"%{q}%" row.run.id = true := by
    intro q
    rw [selects_either, selects_like, selects_like]
    simp [RunColumn.read, TextMeets]
  have hproject : ∀ p, (isProject p).selects (RunAtom.truth db row) = true ↔ ProjectMeets row p .eq :=
    fun p => projectCondition_selects .eq
  simp only [RunListArgs.conditions, List.forall_mem_append, forall_mem_toList_map, List.forall_mem_map,
    hproject, hquery, filter_selects, expr_selects, selects_compare]
  constructor
  · rintro ⟨⟨⟨⟨⟨⟨⟨⟨⟨hp, ho⟩, hst⟩, hq⟩, hn⟩, ha⟩, hb⟩, ht⟩, hps⟩, he⟩
    constructor
    · exact hp
    · simpa [Comparison.holds, RunColumn.read] using ho
    · simpa [Comparison.holds, RunColumn.read] using hst
    · exact hq
    · simpa [Comparison.holds, RunColumn.read] using hn
    · simpa [Comparison.holds, RunColumn.read] using ha
    · simpa [Comparison.holds, RunColumn.read] using hb
    · exact ht
    · exact hps
    · exact he
  · intro h
    refine ⟨⟨⟨⟨⟨⟨⟨⟨⟨h.project, ?_⟩, ?_⟩, h.query⟩, ?_⟩, ?_⟩, ?_⟩, h.tags⟩,
      h.params⟩, h.filter⟩
    · simpa [Comparison.holds, RunColumn.read] using h.owner
    · simpa [Comparison.holds, RunColumn.read] using h.status
    · simpa [Comparison.holds, RunColumn.read] using h.name
    · simpa [Comparison.holds, RunColumn.read] using h.createdAfter
    · simpa [Comparison.holds, RunColumn.read] using h.createdBefore

theorem mem_matching_iff : row ∈ matching args s ↔ row ∈ joined s ∧ Satisfies args s.db row := by
  rw [mem_matching, conditions_select]

theorem matching_nodup (args : RunListArgs) (s : MetadataStore) : (matching args s).Nodup := by
  apply List.Nodup.filter
  apply List.Pairwise.map _ (R := fun a b : RunRow => ¬ RunRow.clash a b)
  · intro a b hclash heq
    exact hclash (congrArg (fun row : JoinedRow => row.run.id) heq)
  · exact s.db.runs.apart

/-! The order of the rows. -/

section Order

variable (env : ListEnv)

instance transCmp_compareField (field : RunListSortField) : TransCmp (compareField env field) := by
  cases field
  · exact inferInstanceAs (TransCmp (compareOn (fun row : JoinedRow => row.times.createdAt)))
  · exact inferInstanceAs (TransCmp (compareOn (fun row : JoinedRow => row.times.updatedAt)))
  · exact inferInstanceAs (TransCmp (compareOn (fun row : JoinedRow => row.run.name.getD "")))
  · exact inferInstanceAs (TransCmp (compareOn (fun row : JoinedRow => row.run.status)))
  · exact inferInstanceAs (TransCmp (compareOn (fun row : JoinedRow => durationSeconds env row.times)))
  · exact inferInstanceAs (TransCmp (compareOn (fun row : JoinedRow => row.run.metricsCount)))
  · exact inferInstanceAs (TransCmp (compareOn (fun row : JoinedRow => row.run.paramsCount)))

instance transCmp_column (column : OrderColumn) : TransCmp (fun a b => column.compare env a b) := by
  cases column with
  | field f => exact transCmp_compareField env f
  | id => exact inferInstanceAs (TransCmp (compareOn (fun row : JoinedRow => row.run.id)))

instance transCmp_term (term : OrderTerm) : TransCmp (fun a b => term.compare env a b) := by
  obtain ⟨column, order⟩ := term
  cases order with
  | asc => exact transCmp_column env column
  | desc =>
      have hswap : (fun a b => (OrderTerm.mk column .desc).compare env a b) = fun a b => column.compare env b a := by
        funext a b
        exact (@OrientedCmp.eq_swap _ (fun a b => column.compare env a b) _ b a).symm
      rw [hswap]
      exact TransCmp.opposite

theorem transCmp_compareBy (terms : List OrderTerm) : TransCmp (fun a b => compareBy env a b terms) := by
  induction terms with
  | nil => exact inferInstanceAs (TransCmp (compareOn (fun _ : JoinedRow => ())))
  | cons term terms ih =>
      exact inferInstanceAs (TransCmp
        (compareLex (fun a b => term.compare env a b) (fun a b => compareBy env a b terms)))

instance transCmp_appendRunOrderSql (field : RunListSortField) (order : RunListSortOrder) :
    TransCmp (appendRunOrderSql env field order) := by
  have heq : appendRunOrderSql env field order = fun a b => compareBy env a b (orderTerms field order) := by
    funext a b
    exact appendRunOrderSql_compareBy env field order a b
  rw [heq]
  exact transCmp_compareBy env _

theorem eq_of_same_id {a b : JoinedRow} (ha : a ∈ joined s) (hb : b ∈ joined s) (h : a.run.id = b.run.id) :
    a = b := by
  obtain ⟨run, hrun, rfl⟩ := List.mem_map.mp ha
  obtain ⟨run', hrun', rfl⟩ := List.mem_map.mp hb
  have hsame : run = run' := by
    refine eq_of_mem (p := fun r => r.id == run'.id) (fun a b ha hb => ?_) hrun hrun' (by simpa using h) (by simp)
    exact (beq_iff_eq.mp ha).trans (beq_iff_eq.mp hb).symm
  rw [hsame]

variable {env}

/-- No two runs are alike in the order, since the id decides at last. -/
theorem eq_of_alike {field : RunListSortField} {order : RunListSortOrder} {a b : JoinedRow} (ha : a ∈ joined s)
    (hb : b ∈ joined s) (h : appendRunOrderSql env field order a b = .eq) : a = b := by
  have hid := (Ordering.then_eq_eq.mp h).2
  apply eq_of_same_id ha hb
  cases order with
  | asc => exact Std.compare_eq_iff_eq.mp hid
  | desc => exact Std.compare_eq_iff_eq.mp (Ordering.swap_eq_eq.mp hid)

/-- The order leaves the database one way to put the rows. -/
theorem eq_sorted_of_perm {field : RunListSortField} {order : RunListSortOrder} {rows : List JoinedRow}
    (hperm : rows.Perm (matching args s))
      (hsorted : rows.Pairwise (fun a b => appendRunOrderSql env field order a b ≠ .gt)) :
    rows = sortBy (appendRunOrderSql env field order) (matching args s) := by
  have hsort : (sortBy (appendRunOrderSql env field order) (matching args s)).Perm (matching args s) :=
    List.perm_insertionSort _ _
  refine (hperm.trans hsort.symm).eq_of_pairwise ?_ hsorted (StableSort.pairwise_insertionSort _)
  intro a b ha hb hab hba
  have ha := (mem_matching_iff.mp (hperm.mem_iff.mp ha)).1
  have hb := (mem_matching_iff.mp (hsort.mem_iff.mp hb)).1
  exact eq_of_alike ha hb (StableSort.eq_of_le_of_le hab hba)

end Order

section Pages

variable (env : ListEnv)

def selected (args : RunListArgs) (s : MetadataStore) : Set JoinedRow :=
  {row | row ∈ joined s ∧ Satisfies args s.db row}

theorem ncard_selected (args : RunListArgs) (s : MetadataStore) :
    (selected args s).ncard = (matching args s).length := by
  have hset : selected args s = ((matching args s).toFinset : Set JoinedRow) := by
    ext row
    rw [List.coe_toFinset]
    exact mem_matching_iff.symm
  rw [hset, Set.ncard_coe_finset, List.toFinset_card_of_nodup (matching_nodup args s)]

/-- What the answers to the requests for the pages of a list say of the stored runs. -/
structure ListsCompletely (args : RunListArgs) (s : MetadataStore) : Prop where
  count : Binds (countStatement args) (writeCount args)
  select : ∀ offset, Binds (selectStatement { args with offset }) (writeSelect { args with offset })
  answers : Fits args → ∀ offset, ∃ rows total, listRunsLimited env {} { args with offset } s =
    (.ok (rows, total), s)
  total : ∀ faults rows total s', listRunsLimited env faults args s = (.ok (rows, total), s') →
    total = (selected args s).ncard
  asks : ∀ a b, appendRunOrderSql env args.sortField args.sortOrder a b =
    compareBy env a b (orderTerms args.sortField args.sortOrder)
  order : TransCmp (appendRunOrderSql env args.sortField args.sortOrder)
  ordered : ∀ a ∈ joined s, ∀ b ∈ joined s, appendRunOrderSql env args.sortField args.sortOrder a b = .eq →
    a = b
  sorted : ∀ rows : List JoinedRow, rows.Perm (matching args s) →
    rows.Pairwise (fun a b => appendRunOrderSql env args.sortField args.sortOrder a b ≠ .gt) →
      rows = sortBy (appendRunOrderSql env args.sortField args.sortOrder) (matching args s)
  pages : ∀ n, (selected args s).ncard ≤ n * args.limit → ∀ answers : Nat → List JoinedRow,
    (∀ k < n, ∃ faults total s', listRunsLimited env faults { args with offset := k * args.limit } s =
      (.ok (answers k, total), s')) →
    (((List.range n).flatMap answers).map (fun row => row.run.id)).Nodup ∧
      ∀ row, row ∈ (List.range n).flatMap answers ↔ row ∈ selected args s

variable {env}

theorem listRuns_total {faults : ListFaults} {rows : List JoinedRow} {total : Nat} {s' : MetadataStore}
    (h : listRuns env faults args s = (.ok (rows, total), s')) : total = (matching args s).length := by
  obtain ⟨_, s₁, hcount, h⟩ := bind_eq_ok h
  obtain ⟨_, s₂, hselect, h⟩ := bind_eq_ok h
  obtain ⟨rfl, rfl⟩ := query_eq_ok hcount
  obtain ⟨rfl, rfl⟩ := query_eq_ok hselect
  obtain ⟨hrows, -⟩ := pure_eq_ok h
  exact (Prod.mk.inj hrows).2

theorem flatMap_answers {n : Nat} (hn : (matching args s).length ≤ n * args.limit) {answers : Nat → List JoinedRow}
    (hanswers : ∀ k < n, ∃ faults total s', listRunsLimited env faults { args with offset := k * args.limit } s =
      (.ok (answers k, total), s')) :
    (List.range n).flatMap answers =
      sortBy (appendRunOrderSql env args.sortField args.sortOrder) (matching args s) := by
  have hpage : ∀ k ∈ List.range n, answers k = ((sortBy (appendRunOrderSql env args.sortField args.sortOrder)
      (matching args s)).drop (k * args.limit)).take args.limit := by
    intro k hk
    obtain ⟨faults, total, s', h⟩ := hanswers k (List.mem_range.mp hk)
    exact (listRuns_ok h).1
  rw [List.flatMap_congr hpage, Paging.flatMap_pages]
  apply List.take_of_length_le
  exact (List.perm_insertionSort _ _).length_eq.trans_le hn

theorem readQuery_offset {auth : AuthContext} {query : ListRunsQuery} (h : readQuery env auth query = .ok args)
    (offset : Nat) : readQuery env auth { query with offset := some offset } = .ok { args with offset } := by
  obtain ⟨access, haccess, h⟩ := Fallible.bind_eq_ok.mp h
  obtain ⟨tags, htags, h⟩ := Fallible.bind_eq_ok.mp h
  obtain ⟨params, hparams, h⟩ := Fallible.bind_eq_ok.mp h
  obtain ⟨expr, hexpr, h⟩ := Fallible.bind_eq_ok.mp h
  obtain ⟨field, hfield, h⟩ := Fallible.bind_eq_ok.mp h
  obtain ⟨order, horder, h⟩ := Fallible.bind_eq_ok.mp h
  obtain ⟨after, hafter, h⟩ := Fallible.bind_eq_ok.mp h
  obtain ⟨before, hbefore, h⟩ := Fallible.bind_eq_ok.mp h
  obtain ⟨project, hproject, h⟩ := Fallible.bind_eq_ok.mp h
  obtain ⟨owner, howner, h⟩ := Fallible.bind_eq_ok.mp h
  obtain ⟨valid, hvalid, h⟩ := Fallible.bind_eq_ok.mp h
  obtain rfl := Except.ok.inj h
  refine Fallible.bind_eq_ok.mpr ⟨access, haccess, Fallible.bind_eq_ok.mpr ⟨tags, htags, ?_⟩⟩
  refine Fallible.bind_eq_ok.mpr ⟨params, hparams, Fallible.bind_eq_ok.mpr ⟨expr, hexpr, ?_⟩⟩
  refine Fallible.bind_eq_ok.mpr ⟨field, hfield, Fallible.bind_eq_ok.mpr ⟨order, horder, ?_⟩⟩
  refine Fallible.bind_eq_ok.mpr ⟨after, hafter, Fallible.bind_eq_ok.mpr ⟨before, hbefore, ?_⟩⟩
  refine Fallible.bind_eq_ok.mpr ⟨project, hproject, Fallible.bind_eq_ok.mpr ⟨owner, howner, ?_⟩⟩
  exact Fallible.bind_eq_ok.mpr ⟨valid, hvalid, rfl⟩

theorem allSupported_readQuery {auth : AuthContext} {query : ListRunsQuery}
    (h : readQuery env auth query = .ok args) :
    ∀ e ∈ args.filterExpr, AllSupported e := by
  obtain ⟨_, _, h⟩ := Fallible.bind_eq_ok.mp h
  obtain ⟨_, _, h⟩ := Fallible.bind_eq_ok.mp h
  obtain ⟨_, _, h⟩ := Fallible.bind_eq_ok.mp h
  obtain ⟨expr, hexpr, h⟩ := Fallible.bind_eq_ok.mp h
  obtain ⟨_, _, h⟩ := Fallible.bind_eq_ok.mp h
  obtain ⟨_, _, h⟩ := Fallible.bind_eq_ok.mp h
  obtain ⟨_, _, h⟩ := Fallible.bind_eq_ok.mp h
  obtain ⟨_, _, h⟩ := Fallible.bind_eq_ok.mp h
  obtain ⟨_, _, h⟩ := Fallible.bind_eq_ok.mp h
  obtain ⟨_, _, h⟩ := Fallible.bind_eq_ok.mp h
  obtain ⟨_, _, h⟩ := Fallible.bind_eq_ok.mp h
  obtain rfl := Except.ok.inj h
  rintro e rfl
  exact allSupported_parseRunFilterExpr hexpr

end Pages

/-- A request for the runs of one owner with a tag, one on a page. -/
def taggedQuery : ListRunsQuery where
  owner := some "u1"
  tags := some "team=vision"
  filter := some "name ~ \"run\" or tag.stage != prod"
  limit := some 1

def taggedArgs : RunListArgs where
  project := none
  ownerUserId := some "u1"
  status := none
  query := none
  name := none
  createdAfter := none
  createdBefore := none
  tagFilters := [⟨"tags.team", some "team", some "vision"⟩]
  paramFilters := []
  filterExpr := some (.or (.condition ⟨.name, .contains, "run"⟩)
    (.condition ⟨.tag "tags.stage" (some "stage"), .notEq, "prod"⟩))
  sortField := .createdAt
  sortOrder := .desc
  limit := 1
  offset := 0

/-- The text of a request that asks for one tag many times over. -/
def crowdedTags (n : ℕ) : String := String.ofList (List.replicate n ['a', ',']).flatten

theorem split_crowdedTags (n : ℕ) : Text.split ',' (crowdedTags n) = List.replicate n "a" ++ [""] := by
  rw [Text.split, crowdedTags, String.toList_ofList]
  induction n with
  | zero => rfl
  | succ n ih =>
      rw [List.replicate_succ, List.flatten_cons, List.cons_append, List.cons_append, List.nil_append]
      change (List.splitOn ',' (['a'] ++ ',' :: _)).map String.ofList = _
      rw [List.splitOn_append_cons_self, List.map_append, ih]
      rfl

theorem mapM_replicate {α β ε : Type} {f : α → Except ε β} {a : α} {b : β} (h : f a = .ok b) (n : ℕ) :
    (List.replicate n a).mapM f = .ok (List.replicate n b) := by
  induction n with
  | zero => rfl
  | succ n ih =>
      rw [List.replicate_succ, List.mapM_cons, h, ih]
      rfl

theorem parse_crowdedTags (n : ℕ) : parseMetadataFilters (some (crowdedTags n)) "tags" "tags" =
    .ok (List.replicate n ⟨"tags.a", some "a", none⟩) := by
  have htrim : Text.trim "a" = "a" ∧ Text.trim "" = "" := by decide +kernel
  have hsegments : ((Text.split ',' (crowdedTags n)).map Text.trim).filter (fun segment => segment ≠ "") =
      List.replicate n "a" := by
    rw [split_crowdedTags, List.map_append, List.map_replicate, htrim.1, List.filter_append,
      List.filter_replicate_of_pos (by decide)]
    simp [htrim.2]
  rw [parseMetadataFilters, hsegments]
  exact mapM_replicate (by rfl) n

def crowdedArgs (n : ℕ) : RunListArgs where
  project := none
  ownerUserId := none
  status := none
  query := none
  name := none
  createdAfter := none
  createdBefore := none
  tagFilters := List.replicate n ⟨"tags.a", some "a", none⟩
  paramFilters := []
  filterExpr := none
  sortField := .createdAt
  sortOrder := .desc
  limit := 100
  offset := 0

theorem read_crowded (n : ℕ) :
    readQuery RunListing.listEnv (.devMode 0) { tags := some (crowdedTags n) } = .ok (crowdedArgs n) := by
  apply Fallible.bind_eq_ok.mpr ⟨(), rfl, ?_⟩
  exact Fallible.bind_eq_ok.mpr ⟨_, parse_crowdedTags n, rfl⟩

theorem deep_crowded {n : ℕ} (h : maxExprDepth ≤ n) : maxExprDepth < whereDepth (crowdedArgs n) := by
  apply many_refused
  rw [crowdedArgs, List.length_replicate]
  exact h

end MLRunX.RunPages
