import AdLedger.Sql.Command

/-!
# Databases

Tables of rows, and the effect on them of each command that the ledger gives. A command that cannot
be carried out has no effect: `Database.perform` then gives the reason and no database. The names of
tables, columns and indexes are the same if they differ in the case of ASCII letters only.

These databases know no other commands than those, and a row is given a value for its key. What can
be said of engines that know more, whatever texts they carry out, is said of a `Connection`.
-/

namespace AdLedger.Sql

/-- Why a command cannot be carried out. -/
inductive Refusal where
  | notUnderstood (text : String)
  | noSuchTable (name : String)
  | noSuchColumn (name : String)
  | noSuchIndex (name : String)
  | tableExists (name : String)
  | indexExists (name : String)
  | wrongWidth (expected given : Nat)
  | nullRefused (column : String)
  | keyTaken (column : String)
  | keyNotInteger (column : String)
  | wrongParameterCount (expected given : Nat)
  | tooManyParameters (given : Nat)
  | rowsReturned
  deriving DecidableEq

namespace Refusal

def message : Refusal → String
  | notUnderstood text => s!"near \"{text}\": syntax error"
  | noSuchTable name => s!"no such table: {name}"
  | noSuchColumn name => s!"no such column: {name}"
  | noSuchIndex name => s!"no such index: {name}"
  | tableExists name => s!"table {name} already exists"
  | indexExists name => s!"there is already an index named {name}"
  | wrongWidth expected given => s!"{given} values for {expected} columns"
  | nullRefused column => s!"NOT NULL constraint failed: {column}"
  | keyTaken column => s!"UNIQUE constraint failed: {column}"
  | keyNotInteger _ => "datatype mismatch"
  | wrongParameterCount expected given =>
    s!"Wrong number of parameters passed to query. Got {given}, needed {expected}"
  | tooManyParameters _ => "too many SQL variables"
  | rowsReturned => "Execute returned results - did you mean to call query?"

end Refusal

/-- Whether two names are the same but for the case of ASCII letters. -/
def sameName (a b : String) : Bool := a.toLower = b.toLower

abbrev Record := List Value

/-- A table with its rows, in the order in which they were inserted. -/
structure Table where
  layout : Layout
  rows : List Record
  deriving DecidableEq

structure Index where
  name : String
  table : String
  columns : List String
  deriving DecidableEq

/-- Tables and indexes, each in the order in which they were created. -/
structure Database where
  tables : List Table
  indexes : List Index
  deriving DecidableEq

namespace Layout

/-- Where a column stands in the rows of a table. -/
def position? (l : Layout) (column : String) : Option Nat :=
  l.columns.findIdx? fun c => sameName c.name column

/-- Whether a table has a column of this name, its row number included. -/
def hasColumn (l : Layout) (column : String) : Bool :=
  (l.position? column).isSome || l.rowNumber.any (sameName · column)

/-- Where a column stands in the rows of a table that has it. -/
def position (l : Layout) (column : String) : Except Refusal Nat :=
  match l.position? column with
  | some i => .ok i
  | none => .error (.noSuchColumn column)

def affinity (l : Layout) (i : Nat) : Affinity := (l.columns[i]?.map Column.affinity).getD .text

end Layout

def Record.get (r : Record) (i : Nat) : Value := r[i]?.getD .null

namespace Condition

/-- The test that a condition makes of the rows of a table. A value is compared in the form that the
column would store it in. -/
def test (l : Layout) : Condition Value → Except Refusal (Record → Bool)
  | always => .ok fun _ => true
  | between column low high => do
    let i ← l.position column
    let store := (l.affinity i).apply
    return fun r => (store low).le (r.get i) && (r.get i).le (store high)
  | equals column value => do
    let i ← l.position column
    return fun r => (r.get i).eq ((l.affinity i).apply value)
  | atMost column value => do
    let i ← l.position column
    return fun r => (r.get i).le ((l.affinity i).apply value)

end Condition

namespace Order

/-- Rows in this order. Of the orders that are open for rows with equal values, this is the one in
which they were inserted. -/
def sort (l : Layout) (rows : List Record) : Order → Except Refusal (List Record)
  | insertion => .ok rows
  | ascending column => do
    let i ← l.position column
    return rows.mergeSort fun r s => (r.get i).compare (s.get i) != .gt
  | descending column => do
    let i ← l.position column
    return rows.mergeSort fun r s => (r.get i).compare (s.get i) != .lt

end Order

/-- The rank of a text; 0 for a value that is not listed. -/
def Ranking.rank (r : Ranking) : Value → Nat
  | .text s => (r.ranks.lookup s).getD 0
  | _ => 0

/-- The rows of positive rank whose rank is the least positive one among the rows of their group. -/
def winners (rank : Record → Nat) (group : Record → Value) (rows : List Record) : List Record :=
  rows.filter fun r => 0 < rank r &&
    rows.all fun other => !((group other).eq (group r) && 0 < rank other && rank other < rank r)

/-- The row that is stored for the values of some columns, the other columns being null. -/
def Layout.record (l : Layout) (columns : List String) (values : Record) : Record :=
  l.columns.map fun c =>
    match columns.findIdx? (sameName · c.name) with
    | some i => c.affinity.apply (Record.get values i)
    | none => .null

namespace Table

/-- Whether the rules of the table's columns allow a row. -/
def allows (t : Table) (r : Record) : Except Refusal Unit :=
  (t.layout.columns.zip r).forM fun (c, v) =>
    match c.rule, v with
    | .required, .null => .error (.nullRefused c.name)
    | .required, _ => .ok ()
    | .key, .integer n =>
      match t.layout.position? c.name with
      | some i =>
        if t.rows.any fun other => Record.get other i = .integer n then .error (.keyTaken c.name)
        else .ok ()
      | none => .ok ()
    | .key, _ => .error (.keyNotInteger c.name)

def append (t : Table) (r : Record) : Table := { t with rows := t.rows ++ [r] }

/-- Adds rows in their order; each has to be allowed. -/
def insertAll (t : Table) : List Record → Except Refusal Table
  | [] => .ok t
  | r :: rest => do
    t.allows r
    (t.append r).insertAll rest

/-- Adds those rows that are allowed, in their order. -/
def insertAllowed (t : Table) : List Record → Table
  | [] => t
  | r :: rest => match t.allows r with
    | .ok () => (t.append r).insertAllowed rest
    | .error _ => t.insertAllowed rest

end Table

namespace Database

def empty : Database := ⟨[], []⟩

instance : Inhabited Database := ⟨empty⟩

def table? (db : Database) (name : String) : Option Table :=
  db.tables.find? fun t => sameName t.layout.name name

def index? (db : Database) (name : String) : Option Index :=
  db.indexes.find? fun i => sameName i.name name

/-- The table of a name, which has to exist. -/
def table (db : Database) (name : String) : Except Refusal Table :=
  match db.table? name with
  | some t => .ok t
  | none => .error (.noSuchTable name)

/-- Puts a table in the place of the one of its name. -/
def setTable (db : Database) (t : Table) : Database :=
  { db with tables := db.tables.map fun u =>
      if sameName u.layout.name t.layout.name then t else u }

def addTable (db : Database) (layout : Layout) : Except Refusal Database :=
  if (db.index? layout.name).isSome then .error (.indexExists layout.name)
  else .ok { db with tables := db.tables ++ [⟨layout, []⟩] }

def addIndex (db : Database) (i : Index) : Except Refusal Database := do
  if i.columns.isEmpty then throw (.notUnderstood ")")
  let t ← db.table i.table
  if (db.table? i.name).isSome then throw (.tableExists i.name)
  if (db.index? i.name).isSome then return db
  match i.columns.find? fun c => !t.layout.hasColumn c with
  | some column => throw (.noSuchColumn column)
  | none => return { db with indexes := db.indexes ++ [i] }

/-- Takes away a table and its indexes. -/
def removeTable (db : Database) (name : String) : Database where
  tables := db.tables.filter fun t => !sameName t.layout.name name
  indexes := db.indexes.filter fun i => !sameName i.table name

def removeIndex (db : Database) (name : String) : Database :=
  { db with indexes := db.indexes.filter fun i => !sameName i.name name }

/-- The rows to store for tuples of values, one for each of some columns. -/
def records (t : Table) (columns : List String) (rows : List Record) :
    Except Refusal (List Record) := do
  if rows.isEmpty then throw (.notUnderstood ";")
  let _ ← columns.mapM t.layout.position
  match rows.find? fun r => r.length ≠ columns.length with
  | some r => throw (.wrongWidth columns.length r.length)
  | none => return rows.map (t.layout.record columns)

/-- Some columns of rows. -/
def project (l : Layout) (columns : List String) (rows : List Record) :
    Except Refusal (List Record) := do
  let positions ← columns.mapM l.position
  return rows.map fun r => positions.map r.get

/-- The greater of two values; null is less than all others. -/
def greater (a b : Value) : Value := if a.compare b = .lt then b else a

/-- Carries out a command of the ledger: the database after it, and the rows it returns. Any other
text is refused. -/
def perform (db : Database) : Command Value → Except Refusal (Database × List Record)
  | .createTable layout =>
    if (db.table? layout.name).isSome then .ok (db, [])
    else return (← db.addTable layout, [])
  | .createNewTable layout =>
    if (db.table? layout.name).isSome then .error (.tableExists layout.name)
    else return (← db.addTable layout, [])
  | .createIndex name table columns => return (← db.addIndex ⟨name, table, columns⟩, [])
  | .dropTable name => do
    let _ ← db.table name
    return (db.removeTable name, [])
  | .dropIndex name =>
    if (db.index? name).isSome then .ok (db.removeIndex name, []) else .error (.noSuchIndex name)
  | .insert name columns rows => do
    let t ← db.table name
    let t ← t.insertAll (← records t columns rows)
    return (db.setTable t, [])
  | .insertOrIgnore name columns rows => do
    let t ← db.table name
    return (db.setTable (t.insertAllowed (← records t columns rows)), [])
  | .delete name condition => do
    let t ← db.table name
    let test ← condition.test t.layout
    return (db.setTable { t with rows := t.rows.filter fun r => !test r }, [])
  | .select columns name condition order => do
    let t ← db.table name
    let test ← condition.test t.layout
    let rows ← order.sort t.layout (t.rows.filter test)
    return (db, ← project t.layout columns rows)
  | .greatest column name => do
    let t ← db.table name
    let i ← t.layout.position column
    return (db, [[(t.rows.map (Record.get · i)).foldl greater .null]])
  | .best columns name condition ranking order => do
    let t ← db.table name
    let test ← condition.test t.layout
    let ranked ← t.layout.position ranking.column
    let group ← t.layout.position ranking.group
    let best := winners (fun r => ranking.rank (r.get ranked)) (·.get group) (t.rows.filter test)
    return (db, ← project t.layout columns (← order.sort t.layout best))
  | .other text => .error (.notUnderstood text)

end Database
end AdLedger.Sql
