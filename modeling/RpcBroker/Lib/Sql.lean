import RpcBroker.Lib.CValue
/-!
# RpcBroker.Lib.Sql

**A fragment of SQL**, in the dialect of SQLite: tables that are created, filled
and dropped, and subqueries for a maximum or a single row. A database has two
schemas, and a name without one means the temporary table before the permanent one.

Executing is partial. `none` stands for whatever is no plain success of a statement
in the fragment: an error, but also every case in which SQLite would convert a
value, enforce a constraint or choose a row. What a statement does is said only
where the documentation says it, so a result about a script that runs here is a
result about the script.

Columns declared `INTEGER PRIMARY KEY` are row ids: an insertion that leaves them
out stores the largest id plus one.
-/

namespace Sql

/-- The name of a table or a column, in lower case. -/
abbrev Name := List UInt8

inductive Value
  | null
  | int (n : Int)
  | text (bytes : List UInt8)
  deriving DecidableEq

inductive ColumnType
  | text
  | integer
  | int
  deriving DecidableEq

structure Column where
  name : Name
  type : ColumnType
  primaryKey : Bool
  deriving DecidableEq

/-! ### Tables -/

/-- Is the column another name for the row id? -/
def Column.isRowId (c : Column) : Bool := c.primaryKey && c.type = .integer

/-- Is the value stored as it is, without a conversion? -/
def Column.stores (c : Column) : Value → Bool
  | .null => !c.isRowId
  | .int _ => !c.isRowId && c.type ≠ .text
  | .text _ => c.type = .text

abbrev Row := List Value

structure Table where
  columns : List Column
  rows : List Row

/-- Where a column stands in a row. -/
def Table.index (t : Table) (c : Name) : Option Nat := t.columns.findIdx? (·.name = c)

/-- The number in a place of a row. -/
def intAt (i : Nat) (row : Row) : Option Int :=
  match row[i]? with
  | some (.int n) => some n
  | _ => none

/-- The numbers in a column, if it holds only numbers. -/
def intsAt (i : Nat) (rows : List Row) : Option (List Int) := rows.mapM (intAt i)

/-- The id a new row gets: the largest so far plus one. -/
def nextAfter (ids : List Int) : Int :=
  match ids.max? with
  | none => 1
  | some id => id + 1

def Table.nextId (t : Table) : Option Int := do
  let i ← t.columns.findIdx? Column.isRowId
  let ids ← intsAt i t.rows
  return nextAfter ids

/-- What an insertion puts in a column. -/
def Table.cell (t : Table) (given : List (Name × Value)) (c : Column) : Option Value :=
  match given.lookup c.name with
  | some v => if c.stores v then some v else none
  | none => if c.isRowId then t.nextId.map .int else some .null

/-- A row with the values that are given. -/
def Table.fill (t : Table) (given : List (Name × Value)) : Option Row :=
  t.columns.mapM (t.cell given)

/-- Add a row. There must be no other key than the row id. -/
def Table.insert (t : Table) (names : List Name) (values : List Value) : Option Table :=
  if names.Nodup ∧ names.length = values.length ∧
      (∀ n ∈ names, n ∈ t.columns.map Column.name) ∧
      (∀ c ∈ t.columns, c.primaryKey = true → c.isRowId = true) then
    (t.fill (names.zip values)).map fun row => { t with rows := t.rows ++ [row] }
  else none

/-- Add a row in place of those with the same key. The key must be a text. -/
def Table.replace (t : Table) (values : List Value) : Option Table := do
  if t.columns.length = values.length then
    let i ← t.columns.findIdx? fun c => c.primaryKey && c.type = .text
    let row ← t.fill ((t.columns.map Column.name).zip values)
    match row[i]? with
    | some (.text key) =>
        some { t with rows := t.rows.filter (fun r => r[i]? ≠ some (.text key)) ++ [row] }
    | _ => none
  else none

/-! ### Databases -/

inductive Schema
  | main
  | temp
  deriving DecidableEq

structure Db where
  table : Schema → Name → Option Table

/-- The database with a table put in or taken out. -/
def Db.set (db : Db) (s : Schema) (n : Name) (t : Option Table) : Db :=
  ⟨fun s' n' => if s' = s ∧ n' = n then t else db.table s' n'⟩

/-- The table a name without a schema means. -/
def Db.find? (db : Db) (n : Name) : Option (Schema × Table) :=
  match db.table .temp n with
  | some t => some (.temp, t)
  | none => (db.table .main n).map fun t => (.main, t)

/-- The rows of a permanent table, none if it does not exist. -/
def Db.rows (db : Db) (n : Name) : List Row :=
  match db.table .main n with
  | some t => t.rows
  | none => []

@[simp] theorem Db.table_set_self (db : Db) (s : Schema) (n : Name) (t : Option Table) :
    (db.set s n t).table s n = t := if_pos ⟨rfl, rfl⟩

theorem Db.table_set_other {s s' : Schema} {n n' : Name} (h : s' ≠ s ∨ n' ≠ n) (db : Db)
    (t : Option Table) : (db.set s n t).table s' n' = db.table s' n' := by
  refine if_neg ?_
  rintro ⟨rfl, rfl⟩
  rcases h with h | h <;> exact h rfl

theorem Db.find?_temp {db : Db} {n : Name} {t : Table} (h : db.table .temp n = some t) :
    db.find? n = some (.temp, t) := by
  rw [Db.find?, h]

theorem Db.find?_main {db : Db} {n : Name} {t : Table} (htemp : db.table .temp n = none)
    (h : db.table .main n = some t) : db.find? n = some (.main, t) := by
  rw [Db.find?, htemp, h]
  rfl

/-! ### Expressions -/

/-- What a subquery selects: the maximum of a column, or the first of two columns
that is not null. -/
inductive Scalar
  | max (c : Name)
  | coalesce (a b : Name)

/-- `(SELECT ... FROM table WHERE column = 'text')`. -/
structure Query where
  scalar : Scalar
  table : Name
  condition : Option (Name × List UInt8)

inductive Expr
  | int (n : Int)
  | str (bytes : List UInt8)
  | query (q : Query)

/-- The rows a query looks at. Its condition compares texts. -/
def Query.rows (q : Query) (t : Table) : Option (List Row) :=
  match q.condition with
  | none => some t.rows
  | some (c, bytes) => do
      let i ← t.columns.findIdx? fun col => col.name = c && col.type = .text
      return t.rows.filter fun row => row[i]? = some (.text bytes)

/-- The value of a subquery. A single row is wanted by `coalesce`. -/
def Query.eval (q : Query) (db : Db) : Option Value := do
  let (_, t) ← db.find? q.table
  let rows ← q.rows t
  match q.scalar with
  | .max c => do
      let i ← t.index c
      let ns ← intsAt i rows
      return match ns.max? with
        | none => .null
        | some n => .int n
  | .coalesce a b => do
      let i ← t.index a
      let j ← t.index b
      match rows with
      | [] => some .null
      | [row] => if row[i]? = some .null then row[j]? else row[i]?
      | _ => none

def Expr.eval (db : Db) : Expr → Option Value
  | .int n => some (.int n)
  | .str bytes => some (.text bytes)
  | .query q => q.eval db

/-! ### Statements -/

inductive Stmt
  /-- `CREATE [TEMP] TABLE IF NOT EXISTS name (columns)` -/
  | create (s : Schema) (name : Name) (columns : List Column)
  /-- `INSERT INTO name (names) VALUES(values)` -/
  | insert (name : Name) (names : List Name) (values : List Expr)
  /-- `INSERT OR REPLACE INTO name VALUES(values)` -/
  | replace (name : Name) (values : List Expr)
  /-- `DROP TABLE name` -/
  | drop (name : Name)
  /-- `SELECT * FROM name` -/
  | selectAll (name : Name)

/-- `sqlite_`: names that start so are reserved. -/
def reserved : List UInt8 := (CLib.CString.lit "sqlite_").chars

/-- Can a table be created like this? -/
def Creatable (name : Name) (columns : List Column) : Prop :=
  ¬ reserved <+: name ∧ columns ≠ [] ∧ (columns.map Column.name).Nodup ∧
    (columns.countP Column.primaryKey) ≤ 1

instance (name : Name) (columns : List Column) : Decidable (Creatable name columns) := by
  unfold Creatable
  infer_instance

def Stmt.exec (db : Db) : Stmt → Option Db
  | .create s name columns =>
      if Creatable name columns then
        some (if (db.table s name).isSome then db else db.set s name (some ⟨columns, []⟩))
      else none
  | .insert name names values => do
      let (s, t) ← db.find? name
      let values ← values.mapM (Expr.eval db)
      let t ← t.insert names values
      return db.set s name (some t)
  | .replace name values => do
      let (s, t) ← db.find? name
      let values ← values.mapM (Expr.eval db)
      let t ← t.replace values
      return db.set s name (some t)
  | .drop name => do
      let (s, _) ← db.find? name
      return db.set s name none
  | .selectAll name => do
      let _ ← db.find? name
      return db

/-- Execute a script. -/
def execAll (db : Db) (stmts : List Stmt) : Option Db := stmts.foldlM Stmt.exec db

/-! ### What a statement does -/

theorem exec_create {db : Db} {s : Schema} {name : Name} {columns : List Column}
    (h : Creatable name columns) :
    Stmt.exec db (.create s name columns) =
      some (if (db.table s name).isSome then db else db.set s name (some ⟨columns, []⟩)) :=
  if_pos h

/-- After `CREATE TABLE IF NOT EXISTS`, a table that can only have these columns has
them, and the rows it had. -/
theorem exec_create_main {db : Db} {name : Name} {columns : List Column}
    (h : Creatable name columns)
    (hcolumns : ∀ t, db.table .main name = some t → t.columns = columns) :
    ∃ db', Stmt.exec db (.create .main name columns) = some db' ∧
      db'.table .main name = some ⟨columns, db.rows name⟩ ∧
      ∀ s n, s ≠ .main ∨ n ≠ name → db'.table s n = db.table s n := by
  rw [exec_create h]
  cases htable : db.table .main name with
  | none =>
      refine ⟨_, rfl, ?_, fun s n hne => Db.table_set_other hne db _⟩
      rw [Db.rows, htable]
      exact Db.table_set_self ..
  | some t =>
      refine ⟨_, rfl, ?_, fun _ _ _ => rfl⟩
      obtain rfl := hcolumns t htable
      rw [Db.rows, htable]
      exact htable

theorem exec_insert {db : Db} {s : Schema} {name : Name} {names : List Name}
    {values : List Expr} {vals : List Value} {t t' : Table} (hfind : db.find? name = some (s, t))
    (hvals : values.mapM (Expr.eval db) = some vals) (hinsert : t.insert names vals = some t') :
    Stmt.exec db (.insert name names values) = some (db.set s name (some t')) := by
  simp only [Stmt.exec, hfind, hvals, hinsert, bind, Option.bind, pure]

theorem exec_replace {db : Db} {s : Schema} {name : Name} {values : List Expr}
    {vals : List Value} {t t' : Table} (hfind : db.find? name = some (s, t))
    (hvals : values.mapM (Expr.eval db) = some vals) (hreplace : t.replace vals = some t') :
    Stmt.exec db (.replace name values) = some (db.set s name (some t')) := by
  simp only [Stmt.exec, hfind, hvals, hreplace, bind, Option.bind, pure]

theorem exec_drop {db : Db} {s : Schema} {name : Name} {t : Table}
    (hfind : db.find? name = some (s, t)) :
    Stmt.exec db (.drop name) = some (db.set s name none) := by
  simp only [Stmt.exec, hfind, bind, Option.bind, pure]

theorem exec_selectAll {db : Db} {s : Schema} {name : Name} {t : Table}
    (hfind : db.find? name = some (s, t)) : Stmt.exec db (.selectAll name) = some db := by
  simp only [Stmt.exec, hfind, bind, Option.bind, pure]

theorem execAll_cons {db db' : Db} {stmt : Stmt} (h : stmt.exec db = some db')
    (stmts : List Stmt) : execAll db (stmt :: stmts) = execAll db' stmts := by
  simp only [execAll, List.foldlM_cons, h, bind, Option.bind]

@[simp] theorem execAll_nil (db : Db) : execAll db [] = some db := rfl

/-! ### New ids -/

/-- A new id is larger than all others. -/
theorem lt_nextAfter {ids : List Int} {id : Int} (h : id ∈ ids) : id < nextAfter ids := by
  unfold nextAfter
  cases hmax : ids.max? with
  | none =>
      rw [List.max?_eq_none_iff.mp hmax] at h
      exact absurd h (List.not_mem_nil)
  | some m => exact Int.lt_add_one_of_le ((List.max?_eq_some_iff.mp hmax).2 id h)

/-- So it is the largest one from then on. -/
theorem max?_append_nextAfter (ids : List Int) :
    (ids ++ [nextAfter ids]).max? = some (nextAfter ids) := by
  refine List.max?_eq_some_iff.mpr ⟨by simp, ?_⟩
  intro id hid
  rcases List.mem_append.mp hid with h | h
  · exact Int.le_of_lt (lt_nextAfter h)
  · exact Int.le_of_eq (List.mem_singleton.mp h)

theorem nextAfter_append (ids : List Int) :
    nextAfter (ids ++ [nextAfter ids]) = nextAfter ids + 1 := by
  rw [nextAfter, max?_append_nextAfter]

theorem intsAt_append {i : Nat} {rows : List Row} {ids : List Int} (h : intsAt i rows = some ids)
    {row : Row} {id : Int} (hrow : intAt i row = some id) :
    intsAt i (rows ++ [row]) = some (ids ++ [id]) := by
  unfold intsAt at h ⊢
  rw [List.mapM_append, h]
  simp [hrow]

end Sql
