import Mathlib.Data.List.Forall2
import MLRunX.Fallible
import MLRunX.Restarts
import MLRunX.Text

namespace MLRunX.SchemaMigration

open Restarts Text

/-- A stored value. A moment is a time of day that was filled in by default. -/
inductive Value
  | null
  | integer (n : Int)
  | real (bits : UInt64)
  | text (s : String)
  | moment
  deriving DecidableEq, Repr

structure Column where
  name : String
  default : Value
  deriving DecidableEq, Repr

structure SqlTable where
  name : String
  columns : List Column
  rows : List (List Value)
  shaped : ∀ row ∈ rows, row.length = columns.length

inductive Key
  | column (name : String)
  | lower (name : String)
  deriving DecidableEq, Repr

inductive Condition
  | isNull (column : String)
  | isOne (column : String)
  deriving DecidableEq, Repr

structure Index where
  name : String
  table : String
  keys : List Key
  unique : Bool
  condition : Option Condition
  deriving DecidableEq, Repr

structure Database where
  tables : List SqlTable
  indexes : List Index

inductive Ddl
  | createTable (name : String) (columns : List Column)
  | createIndex (index : Index)
  | ensureTableColumn (table column : String) (default : Value)
  | insertOrIgnore (version description : String)
  deriving DecidableEq, Repr

def foldByte (b : UInt8) : UInt8 := if 65 ≤ b && b ≤ 90 then b + 32 else b

def foldCase (name : String) : List UInt8 := name.toUTF8.data.toList.map foldByte

/-- Names of tables, indexes and columns are compared by their bytes, up to the case of ASCII letters. -/
def sameName (a b : String) : Bool := foldCase a == foldCase b

def Database.table? (db : Database) (name : String) : Option SqlTable :=
  db.tables.find? (fun t => sameName t.name name)

def SqlTable.hasColumn (t : SqlTable) (column : String) : Bool := t.columns.any (fun c => sameName c.name column)

def SqlTable.cell (t : SqlTable) (row : List Value) (column : String) : Value :=
  (((t.columns.zip row).find? (fun p => sameName p.1.name column)).map Prod.snd).getD .null

def Key.columnName : Key → String
  | .column name => name
  | .lower name => name

def Key.value (t : SqlTable) (row : List Value) : Key → Value
  | .column name => t.cell row name
  | .lower name => match t.cell row name with
      | .text s => .text (toAsciiLowercase s)
      | v => v

def Condition.holds (t : SqlTable) (row : List Value) : Condition → Bool
  | .isNull column => t.cell row column == .null
  | .isOne column => t.cell row column == .integer 1

def Condition.columnName : Condition → String
  | .isNull column => column
  | .isOne column => column

/-- The keys under which an index files the rows. A null value is equal to none. -/
def Index.entries (i : Index) (t : SqlTable) : List (List Value) :=
  ((t.rows.filter (fun row => i.condition.all (Condition.holds t row))).map (fun row =>
    i.keys.map (Key.value t row))).filter
    (fun entry => entry.all (· != .null))

def Index.columnNames (i : Index) : List String :=
  i.keys.map Key.columnName ++ (i.condition.map Condition.columnName).toList

def SqlTable.addColumn (t : SqlTable) (c : Column) : SqlTable where
  name := t.name
  columns := t.columns ++ [c]
  rows := t.rows.map (· ++ [c.default])
  shaped := by
    intro row hrow
    obtain ⟨old, hold, rfl⟩ := List.mem_map.mp hrow
    simp [t.shaped old hold]

def SqlTable.addRow (t : SqlTable) (value : Column → Value) : SqlTable where
  name := t.name
  columns := t.columns
  rows := t.rows ++ [t.columns.map value]
  shaped := by
    intro row hrow
    rcases List.mem_append.mp hrow with hrow | hrow
    · exact t.shaped row hrow
    · rw [List.mem_singleton.mp hrow, List.length_map]

def Database.change (db : Database) (name : String) (f : SqlTable → SqlTable) : Database :=
  { db with tables := db.tables.map (fun t => if sameName t.name name then f t else t) }

def createTable (name : String) (columns : List Column) (db : Database) : Except String Database :=
  if db.tables.any (fun t => sameName t.name name) then .ok db
  else if db.indexes.any (fun i => sameName i.name name) then .error s!"there is already an index named {name}"
  else .ok { db with tables := db.tables ++ [⟨name, columns, [], fun _ h => absurd h List.not_mem_nil⟩] }

/-- The table is looked up first, then the name, and the columns and the rows only for a new index. -/
def createIndex (i : Index) (db : Database) : Except String Database :=
  match db.table? i.table with
  | none => .error s!"no such table: main.{i.table}"
  | some t =>
      if db.tables.any (fun t => sameName t.name i.name) then .error s!"there is already a table named {i.name}"
      else if db.indexes.any (fun j => sameName j.name i.name) then .ok db
      else match i.columnNames.find? (fun c => !t.hasColumn c) with
        | some column => .error s!"no such column: {column}"
        | none =>
            if i.unique && !decide ((i.entries t).Nodup) then .error s!"UNIQUE constraint failed: {i.name}"
            else .ok { db with indexes := db.indexes ++ [i] }

/-- `table_has_column` compares the names as they are written. -/
def tableHasColumn (db : Database) (table column : String) : Bool :=
  (db.table? table).any (fun t => t.columns.any (fun c => c.name == column))

def ensureTableColumn (table column : String) (default : Value) (db : Database) : Except String Database :=
  if tableHasColumn db table column then .ok db
  else match db.table? table with
    | none => .error s!"no such table: {table}"
    | some t =>
        if t.hasColumn column then .error s!"duplicate column name: {column}"
        else .ok (db.change table (·.addColumn ⟨column, default⟩))

def ledger : String := "schema_migrations"

def applied (t : SqlTable) (version : String) : Bool := t.rows.any (fun row => t.cell row "version" == .text version)

def ledgerValue (version description : String) (c : Column) : Value :=
  if sameName c.name "version" then .text version
  else if sameName c.name "description" then .text description
  else c.default

def insertOrIgnore (version description : String) (db : Database) : Except String Database :=
  match db.table? ledger with
  | none => .error s!"no such table: {ledger}"
  | some t => match ["version", "description"].find? (fun c => !t.hasColumn c) with
      | some column => .error s!"table {ledger} has no column named {column}"
      | none =>
          if applied t version then .ok db
          else .ok (db.change ledger (·.addRow (ledgerValue version description)))

def exec : Ddl → Database → Except String Database
  | .createTable name columns => createTable name columns
  | .createIndex i => createIndex i
  | .ensureTableColumn table column default => ensureTableColumn table column default
  | .insertOrIgnore version description => insertOrIgnore version description

section Schema

def plain (name : String) : Column := ⟨name, .null⟩

def dated (name : String) : Column := ⟨name, .moment⟩

def numbered (name : String) (n : Int) : Column := ⟨name, .integer n⟩

def worded (name s : String) : Column := ⟨name, .text s⟩

def index (name table : String) (columns : List String) : Ddl :=
  .createIndex ⟨name, table, columns.map .column, false, none⟩

def schemaBatch : List Ddl := [
  .createTable "projects" [plain "id", plain "name", plain "description", dated "created_at",
      dated "updated_at"],
  .createTable "metric_aliases" [plain "project_id", plain "metric_name", plain "display_name", plain "unit",
      plain "description", numbered "is_active" 1, dated "created_at", dated "updated_at"],
  index "idx_metric_aliases_project_id" "metric_aliases" ["project_id"],
  .createTable "runs" [plain "id", plain "project_id", plain "name", worded "status" "running",
      plain "created_by_key_id", plain "created_by_user_id", dated "created_at", dated "updated_at",
      plain "finished_at", numbered "metrics_count" 0, numbered "params_count" 0],
  index "idx_runs_project" "runs" ["project_id"],
  index "idx_runs_status" "runs" ["status"],
  index "idx_runs_created" "runs" ["created_at"],
  index "idx_runs_name" "runs" ["name"],
  index "idx_runs_project_status_created" "runs" ["project_id", "status", "created_at"],
  .createTable "tags" [plain "id", plain "run_id", plain "key", plain "value"],
  index "idx_tags_run" "tags" ["run_id"],
  index "idx_tags_key" "tags" ["key"],
  index "idx_tags_key_value_run" "tags" ["key", "value", "run_id"],
  .createTable "metrics" [plain "id", plain "run_id", plain "name", plain "step", plain "value",
      plain "timestamp"],
  index "idx_metrics_run" "metrics" ["run_id"],
  index "idx_metrics_run_name" "metrics" ["run_id", "name"],
  index "idx_metrics_run_step" "metrics" ["run_id", "step"],
  .createTable "run_events" [plain "id", plain "run_id", worded "level" "info", worded "source" "sdk",
      plain "message", plain "step", plain "timestamp", dated "created_at"],
  index "idx_run_events_run_id" "run_events" ["run_id", "id"],
  index "idx_run_events_created_at" "run_events" ["run_id", "created_at"],
  .createTable "params" [plain "id", plain "run_id", plain "name", plain "value"],
  index "idx_params_run" "params" ["run_id"],
  index "idx_params_name" "params" ["name"],
  index "idx_params_name_value_run" "params" ["name", "value", "run_id"],
  .createTable "batches" [plain "id", plain "run_id", numbered "seq" 0, plain "payload_hash",
      dated "created_at"],
  index "idx_batches_run" "batches" ["run_id"],
  .createTable "users" [plain "id", plain "email", plain "display_name", worded "auth_provider" "local",
      plain "external_subject", numbered "is_service_account" 0, dated "created_at", dated "updated_at",
      plain "disabled_at"],
  index "idx_users_email" "users" ["email"],
  .createTable "project_memberships" [plain "id", plain "project_id", plain "user_id", plain "role",
      plain "granted_by_user_id", dated "created_at", dated "updated_at", plain "revoked_at"],
  .createIndex ⟨"idx_project_memberships_active_unique", "project_memberships",
    [.column "project_id", .column "user_id"], true, some (.isNull "revoked_at")⟩,
  index "idx_project_memberships_user" "project_memberships" ["user_id", "project_id"],
  .createTable "api_keys" [plain "id", plain "key_hash", plain "key_fingerprint", plain "key_prefix",
      plain "project_id", plain "created_by_user_id", plain "name", plain "description", worded "scopes" "[]",
      worded "metadata" "\x7b\x7d", dated "created_at", dated "updated_at", plain "last_used_at",
      plain "revoked_at", plain "expires_at"],
  index "idx_api_keys_project" "api_keys" ["project_id"],
  index "idx_api_keys_created_by_user" "api_keys" ["created_by_user_id"],
  .createTable "audit_events" [plain "id", dated "occurred_at", plain "actor_user_id", plain "actor_key_id",
      plain "project_id", plain "run_id", plain "action", plain "resource_type", plain "resource_id",
      worded "outcome" "success", plain "request_id", plain "client_ip", plain "user_agent",
      worded "metadata" "\x7b\x7d"],
  index "idx_audit_events_occurred" "audit_events" ["occurred_at"],
  index "idx_audit_events_project" "audit_events" ["project_id", "occurred_at"],
  .createTable "auth_sessions" [plain "id", plain "user_id", plain "token_hash", plain "csrf_hash",
      dated "created_at", dated "updated_at", plain "last_seen_at", plain "expires_at", plain "revoked_at",
      plain "replaced_by_session_id", plain "user_agent", plain "client_ip"],
  index "idx_auth_sessions_user" "auth_sessions" ["user_id", "expires_at"],
  index "idx_auth_sessions_token_hash" "auth_sessions" ["token_hash"],
  .createTable "share_tokens" [plain "token", plain "run_id", plain "created_by_key_prefix",
      dated "created_at", plain "expires_at", plain "revoked_at"],
  index "idx_share_tokens_run" "share_tokens" ["run_id"],
  .createTable "schema_migrations" [plain "version", plain "description", dated "applied_at"]]

def sqliteSchemaVersion : String := "2026-03-01.1"

def sqliteSchemaDescription : String :=
  "extends metric aliases with unit/description/active fields and active-display uniqueness"

def schemaUpgrade : List Ddl := [
  .ensureTableColumn "runs" "created_by_key_id" .null,
  .ensureTableColumn "runs" "created_by_user_id" .null,
  .ensureTableColumn "api_keys" "key_fingerprint" .null,
  index "idx_runs_created_by_key" "runs" ["created_by_key_id"],
  index "idx_runs_created_by_user" "runs" ["created_by_user_id"],
  .createIndex ⟨"idx_api_keys_key_fingerprint", "api_keys", [.column "key_fingerprint"], true, none⟩,
  .ensureTableColumn "users" "is_platform_admin" (.integer 0),
  .ensureTableColumn "metric_aliases" "unit" .null,
  .ensureTableColumn "metric_aliases" "description" .null,
  .ensureTableColumn "metric_aliases" "is_active" (.integer 1),
  .createIndex ⟨"idx_metric_aliases_project_display_active", "metric_aliases",
    [.column "project_id", .lower "display_name"], true, some (.isOne "is_active")⟩,
  .insertOrIgnore sqliteSchemaVersion sqliteSchemaDescription]

def initSchema : List Ddl := schemaBatch ++ schemaUpgrade

end Schema

section Names

theorem sameName_iff {a b : String} : sameName a b = true ↔ foldCase a = foldCase b := beq_iff_eq

theorem sameName_congr {a b c : String} (h : sameName a b = true) : sameName a c = sameName b c := by
  have h := sameName_iff.mp h
  rw [sameName, sameName, h]

theorem sameName_comm (a b : String) : sameName a b = sameName b a :=
  Bool.eq_iff_iff.mpr (sameName_iff.trans (eq_comm.trans sameName_iff.symm))

end Names

/-- A table with its old rows, which have the defaults of the columns that were added.
Only the ledger has new rows. -/
structure Kept (t t' : SqlTable) : Prop where
  name : t'.name = t.name
  grown : ∃ (added : List Column) (new : List (List Value)), t'.columns = t.columns ++ added ∧
    t'.rows = t.rows.map (· ++ added.map Column.default) ++ new ∧ (sameName t.name ledger = false → new = [])

theorem Kept.refl (t : SqlTable) : Kept t t := ⟨rfl, [], [], by simp, by simp, fun _ => rfl⟩

theorem Kept.trans {t t' t'' : SqlTable} (h : Kept t t') (h' : Kept t' t'') : Kept t t'' := by
  obtain ⟨added, new, hcolumns, hrows, hnew⟩ := h.grown
  obtain ⟨added', new', hcolumns', hrows', hnew'⟩ := h'.grown
  refine ⟨h'.name.trans h.name, added ++ added', new.map (· ++ added'.map Column.default) ++ new', ?_, ?_, ?_⟩
  · rw [hcolumns', hcolumns, List.append_assoc]
  · rw [hrows', hrows, List.map_append, List.map_append, List.map_map, List.append_assoc]
    congr 1
    apply List.map_congr_left
    intro row _
    exact List.append_assoc _ _ _
  · intro hledger
    rw [hnew hledger, hnew' (h.name ▸ hledger)]
    rfl

theorem kept_addColumn (t : SqlTable) (c : Column) : Kept t (t.addColumn c) :=
  ⟨rfl, [c], [], rfl, (List.append_nil _).symm, fun _ => rfl⟩

theorem kept_addRow {t : SqlTable} (h : sameName t.name ledger = true) (value : Column → Value) :
    Kept t (t.addRow value) := by
  refine ⟨rfl, [], [t.columns.map value], (List.append_nil _).symm, ?_, fun hledger => ?_⟩
  · simp [SqlTable.addRow]
  · rw [h] at hledger
    cases hledger

theorem cell_append {t t' : SqlTable} {row pad : List Value} {added : List Column} {column : String}
    (hrow : row ∈ t.rows) (hcolumns : t'.columns = t.columns ++ added) (hcolumn : t.hasColumn column = true) :
    t'.cell (row ++ pad) column = t.cell row column := by
  have hshaped : t.columns.length = row.length := (t.shaped row hrow).symm
  rw [SqlTable.cell, SqlTable.cell, hcolumns, List.zip_append hshaped, List.find?_append]
  cases hfind : (t.columns.zip row).find? (fun p => sameName p.1.name column) with
  | some p => rfl
  | none =>
      obtain ⟨c, hc, hname⟩ := List.any_eq_true.mp hcolumn
      rw [← List.map_fst_zip (Nat.le_of_eq hshaped)] at hc
      obtain ⟨p, hp, rfl⟩ := List.mem_map.mp hc
      exact absurd hname (List.find?_eq_none.mp hfind p hp)

theorem hasColumn_kept {t t' : SqlTable} (h : Kept t t') {column : String} (hcolumn : t.hasColumn column = true) :
    t'.hasColumn column = true := by
  obtain ⟨added, new, hcolumns, -, -⟩ := h.grown
  rw [SqlTable.hasColumn, hcolumns, List.any_append, Bool.or_eq_true]
  exact .inl hcolumn

/-- What a column held, from the first row to the last. -/
def SqlTable.column (t : SqlTable) (name : String) : List Value := t.rows.map (t.cell · name)

theorem column_kept {t t' : SqlTable} (h : Kept t t') {name : String} (hname : t.hasColumn name = true) :
    t.column name <+: t'.column name ∧ (sameName t.name ledger = false → t'.column name = t.column name) := by
  obtain ⟨added, new, hcolumns, hrows, hnew⟩ := h.grown
  have hold : (t.rows.map (· ++ added.map Column.default)).map (t'.cell · name) = t.column name := by
    rw [List.map_map]
    apply List.map_congr_left
    intro row hrow
    exact cell_append hrow hcolumns hname
  have hlast : t'.column name = t.column name ++ new.map (t'.cell · name) :=
    calc t'.column name
      _ = t'.rows.map (t'.cell · name) := rfl
      _ = t.column name ++ new.map (t'.cell · name) := by rw [hrows, List.map_append, hold]
  refine ⟨hlast ▸ List.prefix_append _ _, fun hledger => ?_⟩
  rw [hlast, hnew hledger, List.map_nil, List.append_nil]

/-- A database with all its old tables, their old rows, and its old indexes. A new table
has no name that an index has. -/
structure Grows (db db' : Database) : Prop where
  tables : ∃ front back, db'.tables = front ++ back ∧ List.Forall₂ Kept db.tables front
  indexes : ∀ i ∈ db.indexes, i ∈ db'.indexes
  apart : ∀ t ∈ db'.tables, (∃ old ∈ db.tables, t.name = old.name) ∨
    ∀ i ∈ db.indexes, sameName i.name t.name = false

theorem Grows.refl (db : Database) : Grows db db where
  tables := ⟨db.tables, [], (List.append_nil _).symm, List.forall₂_same.mpr (fun t _ => Kept.refl t)⟩
  indexes := fun _ h => h
  apart := fun t ht => .inl ⟨t, ht, rfl⟩

theorem forall₂_append {ts' front back : List SqlTable} (h : List.Forall₂ Kept (front ++ back) ts') :
    ∃ front' back', ts' = front' ++ back' ∧ List.Forall₂ Kept front front' ∧
      List.Forall₂ Kept back back' := by
  induction front generalizing ts' with
  | nil => exact ⟨[], ts', rfl, .nil, h⟩
  | cons t front ih =>
      cases h with
      | cons hkept hrest =>
          obtain ⟨front', back', rfl, hfront, hback⟩ := ih hrest
          exact ⟨_ :: front', back', rfl, .cons hkept hfront, hback⟩

theorem forall₂_trans {ts ts' ts'' : List SqlTable} (h : List.Forall₂ Kept ts ts')
    (h' : List.Forall₂ Kept ts' ts'') :
    List.Forall₂ Kept ts ts'' := by
  induction h generalizing ts'' with
  | nil =>
      cases h'
      exact .nil
  | cons hkept hrest ih =>
      cases h' with
      | cons hkept' hrest' => exact .cons (hkept.trans hkept') (ih hrest')

theorem Grows.trans {db db' db'' : Database} (h : Grows db db') (h' : Grows db' db'') : Grows db db'' where
  tables := by
    obtain ⟨front, back, htables, hfront⟩ := h.tables
    obtain ⟨front', back', htables', hfront'⟩ := h'.tables
    rw [htables] at hfront'
    obtain ⟨old, new, rfl, hold, -⟩ := forall₂_append hfront'
    exact ⟨old, new ++ back', by rw [htables', List.append_assoc], forall₂_trans hfront hold⟩
  indexes := fun i hi => h'.indexes i (h.indexes i hi)
  apart := by
    intro t ht
    rcases h'.apart t ht with ⟨t', ht', hname⟩ | hapart
    · rw [hname]
      exact h.apart t' ht'
    · exact .inr (fun i hi => hapart i (h.indexes i hi))

theorem Grows.table? {db db' : Database} (h : Grows db db') {name : String} {t : SqlTable}
    (ht : db.table? name = some t) : ∃ t', db'.table? name = some t' ∧ Kept t t' := by
  obtain ⟨front, back, htables, hfront⟩ := h.tables
  have hfind : ∃ t', front.find? (fun t => sameName t.name name) = some t' ∧ Kept t t' := by
    rw [Database.table?] at ht
    generalize db.tables = olds at ht hfront
    clear htables
    induction hfront with
    | nil => cases ht
    | @cons old new olds news hkept hrest ih =>
        rw [List.find?_cons] at ht ⊢
        rw [hkept.name]
        cases hname : sameName old.name name with
        | true =>
            rw [hname] at ht
            obtain rfl := Option.some.inj ht
            exact ⟨new, rfl, hkept⟩
        | false =>
            rw [hname] at ht
            exact ih ht
  obtain ⟨t', ht', hkept⟩ := hfind
  exact ⟨t', by rw [Database.table?, htables, List.find?_append, ht']; rfl, hkept⟩

theorem change_grows {db : Database} {name : String} {f : SqlTable → SqlTable}
    (hf : ∀ t, sameName t.name name = true → Kept t (f t)) : Grows db (db.change name f) where
  tables := by
    refine ⟨_, [], (List.append_nil _).symm, ?_⟩
    apply List.forall₂_map_right_iff.mpr
    apply List.forall₂_same.mpr
    intro t _
    split
    · exact hf t ‹_›
    · exact Kept.refl t
  indexes := fun _ h => h
  apart := by
    intro t ht
    obtain ⟨old, hold, rfl⟩ := List.mem_map.mp ht
    refine .inl ⟨old, hold, ?_⟩
    split
    · exact (hf old ‹_›).name
    · rfl

theorem any_table_iff {db : Database} {name : String} :
    db.tables.any (fun t => sameName t.name name) = true ↔ (db.table? name).isSome = true := by
  rw [Database.table?, List.find?_isSome, List.any_eq_true]

theorem exec_grows (a : Ddl) (db db' : Database) (h : exec a db = .ok db') : Grows db db' := by
  cases a with
  | createTable name columns =>
      simp only [exec, createTable] at h
      split at h
      · obtain rfl := Except.ok.inj h
        exact .refl _
      split at h
      · cases h
      · rename_i hfree
        obtain rfl := Except.ok.inj h
        refine ⟨⟨db.tables, _, rfl, List.forall₂_same.mpr (fun t _ => Kept.refl t)⟩, fun _ h => h, ?_⟩
        intro t ht
        rcases List.mem_append.mp ht with ht | ht
        · exact .inl ⟨t, ht, rfl⟩
        · obtain rfl := List.mem_singleton.mp ht
          refine .inr (fun i hi => ?_)
          simpa using fun hname => hfree (List.any_eq_true.mpr ⟨i, hi, hname⟩)
  | createIndex i =>
      simp only [exec, createIndex] at h
      split at h
      · cases h
      split at h
      · cases h
      split at h
      · obtain rfl := Except.ok.inj h
        exact .refl _
      split at h
      · cases h
      split at h
      · cases h
      · obtain rfl := Except.ok.inj h
        exact ⟨⟨db.tables, [], (List.append_nil _).symm, List.forall₂_same.mpr (fun t _ => Kept.refl t)⟩,
          fun _ h => List.mem_append_left _ h, fun t ht => .inl ⟨t, ht, rfl⟩⟩
  | ensureTableColumn table column default =>
      simp only [exec, ensureTableColumn] at h
      split at h
      · obtain rfl := Except.ok.inj h
        exact .refl _
      split at h
      · cases h
      split at h
      · cases h
      · obtain rfl := Except.ok.inj h
        exact change_grows (fun t _ => kept_addColumn t _)
  | insertOrIgnore version description =>
      simp only [exec, insertOrIgnore] at h
      split at h
      · cases h
      split at h
      · cases h
      split at h
      · obtain rfl := Except.ok.inj h
        exact .refl _
      · obtain rfl := Except.ok.inj h
        exact change_grows (fun t ht => kept_addRow ht _)

/-- What a statement is there for. -/
def Done : Ddl → Database → Prop
  | .createTable name _, db => (db.table? name).isSome = true
  | .createIndex i, db => (db.table? i.table).isSome = true ∧
      (∀ t ∈ db.tables, sameName t.name i.name = false) ∧
      ∃ j ∈ db.indexes, sameName j.name i.name = true
  | .ensureTableColumn table column _, db => ∃ t, db.table? table = some t ∧ ∃ c ∈ t.columns, c.name = column
  | .insertOrIgnore version _, db => ∃ t, db.table? ledger = some t ∧ t.hasColumn "version" = true ∧
      t.hasColumn "description" = true ∧ .text version ∈ t.column "version"

theorem done_grows {a : Ddl} {db db' : Database} (h : Done a db) (hgrows : Grows db db') : Done a db' := by
  have hthere : ∀ {name}, (db.table? name).isSome = true → (db'.table? name).isSome = true := by
    intro name hsome
    obtain ⟨t, ht⟩ := Option.isSome_iff_exists.mp hsome
    obtain ⟨t', ht', -⟩ := hgrows.table? ht
    rw [ht']
    rfl
  cases a with
  | createTable name columns => exact hthere h
  | createIndex i =>
      obtain ⟨htable, hfree, j, hj, hname⟩ := h
      refine ⟨hthere htable, ?_, j, hgrows.indexes j hj, hname⟩
      intro t ht
      rcases hgrows.apart t ht with ⟨old, hold, heq⟩ | hapart
      · rw [heq]
        exact hfree old hold
      · rw [sameName_comm, ← sameName_congr hname]
        exact hapart j hj
  | ensureTableColumn table column default =>
      obtain ⟨t, ht, c, hc, hname⟩ := h
      obtain ⟨t', ht', hkept⟩ := hgrows.table? ht
      obtain ⟨added, new, hcolumns, -, -⟩ := hkept.grown
      exact ⟨t', ht', c, hcolumns ▸ List.mem_append_left _ hc, hname⟩
  | insertOrIgnore version description =>
      obtain ⟨t, ht, hversion, hdescription, happlied⟩ := h
      obtain ⟨t', ht', hkept⟩ := hgrows.table? ht
      exact ⟨t', ht', hasColumn_kept hkept hversion, hasColumn_kept hkept hdescription,
        (column_kept hkept hversion).1.subset happlied⟩

theorem table?_name {db : Database} {name : String} {t : SqlTable} (h : db.table? name = some t) :
    sameName t.name name = true := by
  have hfound := List.find?_some (p := fun t : SqlTable => sameName t.name name) h
  exact hfound

theorem table?_change {db : Database} {name : String} (f : SqlTable → SqlTable) (hf : ∀ t, (f t).name = t.name)
    {t : SqlTable} (h : db.table? name = some t) : (db.change name f).table? name = some (f t) := by
  have hsame : (fun u => sameName (if sameName u.name name = true then f u else u).name name) =
      fun u => sameName u.name name := by
    funext u
    split
    · rw [hf]
    · rfl
  rw [Database.table?, Database.change, List.find?_map]
  change Option.map _ (db.tables.find? (fun u =>
    sameName (if sameName u.name name = true then f u else u).name name)) = _
  rw [hsame, ← Database.table?, h, Option.map_some, if_pos (table?_name h)]

theorem find?_none_hasColumn {t : SqlTable} {names : List String} (h : names.find? (fun c => !t.hasColumn c) = none)
    {name : String} (hname : name ∈ names) : t.hasColumn name = true := by
  simpa using List.find?_eq_none.mp h name hname

theorem cell_ledgerValue {t : SqlTable} (h : t.hasColumn "version" = true) (version description : String) :
    t.cell (t.columns.map (ledgerValue version description)) "version" = .text version := by
  have hzip : t.columns.zip (t.columns.map (ledgerValue version description)) =
      t.columns.map (fun c => (c, ledgerValue version description c)) := by
    generalize t.columns = columns
    induction columns with
    | nil => rfl
    | cons c columns ih => rw [List.map_cons, List.zip_cons_cons, ih, List.map_cons]
  rw [SqlTable.cell, hzip, List.find?_map]
  cases hfind : t.columns.find? ((fun p => sameName p.1.name "version") ∘ fun c =>
      (c, ledgerValue version description c)) with
  | none =>
      obtain ⟨c, hc, hname⟩ := List.any_eq_true.mp h
      exact absurd hname (List.find?_eq_none.mp hfind c hc)
  | some c =>
      have hname : sameName c.name "version" = true := by
        have hfound := List.find?_some hfind
        exact hfound
      simp only [Option.map_some, Option.getD_some, ledgerValue, hname, if_true]

theorem exec_done (a : Ddl) (db db' : Database) (h : exec a db = .ok db') : Done a db' := by
  cases a with
  | createTable name columns =>
      simp only [exec, createTable] at h
      split at h
      · obtain rfl := Except.ok.inj h
        exact any_table_iff.mp ‹_›
      split at h
      · cases h
      · obtain rfl := Except.ok.inj h
        refine any_table_iff.mp (List.any_eq_true.mpr ⟨_, List.mem_append_right _ List.mem_cons_self, ?_⟩)
        exact sameName_iff.mpr rfl
  | createIndex i =>
      simp only [exec, createIndex] at h
      split at h
      · cases h
      rename_i t ht
      split at h
      · cases h
      rename_i hfree
      have hfree : ∀ t ∈ db.tables, sameName t.name i.name = false := by
        intro u hu
        simpa using fun hname => hfree (List.any_eq_true.mpr ⟨u, hu, hname⟩)
      split at h
      · rename_i hthere
        obtain rfl := Except.ok.inj h
        exact ⟨by rw [ht]; rfl, hfree, by simpa using hthere⟩
      split at h
      · cases h
      split at h
      · cases h
      · obtain rfl := Except.ok.inj h
        exact ⟨Option.isSome_of_eq_some ht, hfree, i, List.mem_append_right _ List.mem_cons_self,
          sameName_iff.mpr rfl⟩
  | ensureTableColumn table column default =>
      simp only [exec, ensureTableColumn] at h
      split at h
      · rename_i hthere
        obtain rfl := Except.ok.inj h
        obtain ⟨t, ht, hcolumn⟩ := (Option.any_eq_true _ _).mp hthere
        exact ⟨t, ht, by simpa using hcolumn⟩
      split at h
      · cases h
      rename_i t ht
      split at h
      · cases h
      · obtain rfl := Except.ok.inj h
        exact ⟨t.addColumn ⟨column, default⟩,
          table?_change (·.addColumn ⟨column, default⟩) (fun _ => rfl) ht, ⟨column, default⟩,
          List.mem_append_right _ List.mem_cons_self, rfl⟩
  | insertOrIgnore version description =>
      simp only [exec, insertOrIgnore] at h
      split at h
      · cases h
      rename_i t ht
      split at h
      · cases h
      rename_i hcolumns
      have hversion := find?_none_hasColumn hcolumns List.mem_cons_self
      have hdescription := find?_none_hasColumn hcolumns (List.mem_cons_of_mem _ List.mem_cons_self)
      split at h
      · rename_i happlied
        obtain rfl := Except.ok.inj h
        refine ⟨t, ht, hversion, hdescription, List.mem_map.mpr ?_⟩
        simpa [applied] using happlied
      · obtain rfl := Except.ok.inj h
        refine ⟨t.addRow (ledgerValue version description),
          table?_change (·.addRow (ledgerValue version description)) (fun _ => rfl) ht, hversion, hdescription,
          List.mem_map.mpr ?_⟩
        exact ⟨_, List.mem_append_right _ List.mem_cons_self, cell_ledgerValue hversion version description⟩

theorem exec_idle (a : Ddl) (db : Database) (h : Done a db) : exec a db = .ok db := by
  cases a with
  | createTable name columns =>
      simp only [exec, createTable, any_table_iff.mpr h, if_true]
  | createIndex i =>
      obtain ⟨htable, hfree, hthere⟩ := h
      obtain ⟨t, ht⟩ := Option.isSome_iff_exists.mp htable
      have hnone : db.tables.any (fun t => sameName t.name i.name) = false := by simpa using hfree
      have hsome : db.indexes.any (fun j => sameName j.name i.name) = true := by simpa using hthere
      simp only [exec, createIndex, ht, hnone, hsome, Bool.false_eq_true, if_false, if_true]
  | ensureTableColumn table column default =>
      obtain ⟨t, ht, hcolumn⟩ := h
      have hthere : tableHasColumn db table column = true := by
        rw [tableHasColumn, ht]
        simpa using hcolumn
      simp only [exec, ensureTableColumn, hthere, if_true]
  | insertOrIgnore version description =>
      obtain ⟨t, ht, hversion, hdescription, happlied⟩ := h
      have hcolumns : ["version", "description"].find? (fun c => !t.hasColumn c) = none := by
        simp [hversion, hdescription]
      have happlied : applied t version = true := by simpa [applied, SqlTable.column] using happlied
      simp only [exec, insertOrIgnore, ht, hcolumns, happlied, if_true]

theorem settles_exec : Settles exec Done where
  settles := exec_done
  idle := exec_idle
  stays := fun _ b db db' h hstep => done_grows h (exec_grows b db db' hstep)

/-! Starts of the server on one file. -/

/-- A database in which the server has since written rows. The ledger only grows. -/
structure Written (db db' : Database) : Prop where
  tables : List.Forall₂ (fun t t' => t'.name = t.name ∧ t'.columns = t.columns ∧
    (sameName t.name ledger = true → t.column "version" ⊆ t'.column "version")) db.tables db'.tables
  indexes : db'.indexes = db.indexes

theorem Written.table? {db db' : Database} (h : Written db db') {name : String} {t : SqlTable}
    (ht : db.table? name = some t) :
    ∃ t', db'.table? name = some t' ∧ t'.columns = t.columns ∧
      (sameName t.name ledger = true → t.column "version" ⊆ t'.column "version") := by
  have htables := h.tables
  rw [Database.table?] at ht ⊢
  generalize db.tables = ts, db'.tables = ts' at ht htables
  induction htables with
  | nil => cases ht
  | @cons u u' ts ts' hrel hrest ih =>
      rw [List.find?_cons] at ht ⊢
      rw [hrel.1]
      cases hname : sameName u.name name with
      | true =>
          rw [hname] at ht
          obtain rfl := Option.some.inj ht
          exact ⟨u', rfl, hrel.2⟩
      | false =>
          rw [hname] at ht
          exact ih ht

theorem done_written {a : Ddl} {db db' : Database} (h : Done a db) (hwritten : Written db db') : Done a db' := by
  have hthere : ∀ {name}, (db.table? name).isSome = true → (db'.table? name).isSome = true := by
    intro name hsome
    obtain ⟨t, ht⟩ := Option.isSome_iff_exists.mp hsome
    obtain ⟨t', ht', -⟩ := hwritten.table? ht
    exact Option.isSome_of_eq_some ht'
  cases a with
  | createTable name columns => exact hthere h
  | createIndex i =>
      obtain ⟨htable, hfree, hname⟩ := h
      refine ⟨hthere htable, ?_, hwritten.indexes ▸ hname⟩
      intro t ht
      obtain ⟨old, hold, hrel⟩ := Fallible.exists_of_right hwritten.tables t ht
      rw [hrel.1]
      exact hfree old hold
  | ensureTableColumn table column default =>
      obtain ⟨t, ht, hcolumn⟩ := h
      obtain ⟨t', ht', hcolumns, -⟩ := hwritten.table? ht
      exact ⟨t', ht', hcolumns ▸ hcolumn⟩
  | insertOrIgnore version description =>
      obtain ⟨t, ht, hversion, hdescription, happlied⟩ := h
      obtain ⟨t', ht', hcolumns, hledger⟩ := hwritten.table? ht
      refine ⟨t', ht', ?_, ?_, hledger (table?_name ht) happlied⟩
      · rw [SqlTable.hasColumn, hcolumns]
        exact hversion
      · rw [SqlTable.hasColumn, hcolumns]
        exact hdescription

/-- However many starts were cut off, and wherever, the next one ends as if it were the
first. Once one has succeeded, later ones change nothing, whatever was written since. -/
theorem starts_agree (ns : List Nat) (db : Database) :
    run exec initSchema (restarts exec initSchema ns db) = run exec initSchema db ∧
      ((run exec initSchema db).1 = .ok () → (∀ a ∈ initSchema, Done a (run exec initSchema db).2) ∧
        ∀ db', Written (run exec initSchema db).2 db' → run exec initSchema db' = (.ok (), db')) := by
  refine ⟨run_restarts settles_exec initSchema ns db, fun h => ?_⟩
  have hdone : ∀ a ∈ initSchema, Done a (run exec initSchema db).2 :=
    done_of_run settles_exec (Prod.ext h rfl)
  exact ⟨hdone, fun db' hwritten => run_of_done settles_exec (fun a ha => done_written (hdone a ha) hwritten)⟩

def oldRuns : SqlTable where
  name := "runs"
  columns := [plain "id", plain "project_id", plain "name", worded "status" "running", dated "created_at"]
  rows := [[.text "r1", .text "p1", .null, .text "finished", .text "2025-01-01 00:00:00"]]
  shaped := by simp

def oldFile : Database := ⟨[oldRuns], []⟩

theorem Written.refl (db : Database) : Written db db :=
  ⟨List.forall₂_same.mpr (fun _ _ => ⟨rfl, rfl, fun _ => List.Subset.refl _⟩), rfl⟩

theorem starts_agree_oldFile :
    run exec initSchema (restarts exec initSchema [7, 60] oldFile) = run exec initSchema oldFile ∧
      run exec initSchema (run exec initSchema oldFile).2 = (.ok (), (run exec initSchema oldFile).2) :=
  ⟨(starts_agree [7, 60] oldFile).1, ((starts_agree [] oldFile).2 (by decide +kernel)).2 _ (Written.refl _)⟩

/-- No start loses what a file held: each column of each table reads as before, cut off or
not, and only the ledger has further rows. -/
theorem starts_keep_data (ns : List Nat) {db : Database} {name column : String} {t : SqlTable}
    (ht : db.table? name = some t) (hcolumn : t.hasColumn column = true) :
    ∃ t', (restarts exec initSchema ns db).table? name = some t' ∧ t'.hasColumn column = true ∧
      t.column column <+: t'.column column ∧
      (sameName t.name ledger = false → t'.column column = t.column column) := by
  have hgrows : Grows db (restarts exec initSchema ns db) :=
    restarts_related Grows.refl (fun _ _ _ => Grows.trans) exec_grows initSchema ns db
  obtain ⟨t', ht', hkept⟩ := hgrows.table? ht
  exact ⟨t', ht', hasColumn_kept hkept hcolumn, column_kept hkept hcolumn⟩

theorem starts_keep_data_oldFile :
    ∃ t', (restarts exec initSchema [7, 60] oldFile).table? "runs" = some t' ∧ t'.hasColumn "status" = true ∧
      oldRuns.column "status" <+: t'.column "status" ∧
      (sameName oldRuns.name ledger = false → t'.column "status" = oldRuns.column "status") :=
  starts_keep_data [7, 60] rfl (by decide)

end MLRunX.SchemaMigration
