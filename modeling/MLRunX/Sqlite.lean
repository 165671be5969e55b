namespace MLRunX.Sqlite

inductive SqliteError
  | database (text : String)
  | notFound (what : String)
  deriving DecidableEq, Repr

def SqliteError.message : SqliteError → String
  | .database text => s!"Database error: {text}"
  | .notFound what => s!"Not found: {what}"

abbrev Sql (α : Type) := Except SqliteError α

/-- A statement that the database may refuse for reasons of its own, such as a
full disk or a lock. Then it has no effect. -/
def statement {α : Type} (fault : Option String) (run : Sql α) : Sql α :=
  match fault with
  | some text => .error (.database text)
  | none => run

def uniqueViolation (column : String) : SqliteError :=
  .database s!"UNIQUE constraint failed: {column}"

@[simp] theorem statement_none {α : Type} (run : Sql α) : statement none run = run := rfl

@[simp] theorem statement_some {α : Type} (text : String) (run : Sql α) :
    statement (some text) run = .error (.database text) := rfl

theorem statement_eq_ok {α : Type} {fault : Option String} {run : Sql α} {a : α} :
    statement fault run = .ok a ↔ fault = none ∧ run = .ok a := by
  cases fault <;> simp

end MLRunX.Sqlite
