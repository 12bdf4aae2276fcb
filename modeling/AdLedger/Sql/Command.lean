import AdLedger.Sql.Value

/-!
# Commands

The commands that the ledger gives a database, as syntax over the terms that stand for values: `?`
or a value in a command as it is written, values only once it has been filled in. `Command.text`
is the written form, and `Command.fill` puts a list of values in the place of the parameters, in
the order in which they are written.
-/

namespace AdLedger.Sql

/-- What stands for a value in a written command. -/
inductive Term where
  | parameter
  | literal (v : Value)
  deriving DecidableEq

/-- How the values of a column are restricted. -/
inductive Rule where
  | required
  /-- An integer that no other row has; the name of the row. -/
  | key
  deriving DecidableEq

structure Column where
  name : String
  affinity : Affinity
  rule : Rule
  deriving DecidableEq

/-- The name and the columns of a table. A table may also number its rows, in a column of its own
that is never read. -/
structure Layout where
  name : String
  rowNumber : Option String
  columns : List Column
  deriving DecidableEq

/-- Which rows a command is about. -/
inductive Condition (τ : Type) where
  | always
  | between (column : String) (low high : τ)
  | equals (column : String) (value : τ)
  | atMost (column : String) (value : τ)

/-- The order of the rows of a result. It leaves open in which order rows come whose values in the
column are equal, or rows of a result for which no column is named. -/
inductive Order where
  | insertion
  | ascending (column : String)
  | descending (column : String)

/-- A rank for rows, by the text in one column, and the column by which rows are grouped. Texts that
are not listed have rank 0. -/
structure Ranking where
  column : String
  ranks : List (String × Nat)
  group : String

inductive Command (τ : Type) where
  /-- Creates a table, unless there is one of that name. -/
  | createTable (layout : Layout)
  /-- Creates a table; there must be none of that name. -/
  | createNewTable (layout : Layout)
  /-- Creates an index, unless there is one of that name. -/
  | createIndex (name table : String) (columns : List String)
  | dropTable (name : String)
  | dropIndex (name : String)
  | insert (table : String) (columns : List String) (rows : List (List τ))
  /-- Inserts the rows that no rule of the table forbids. -/
  | insertOrIgnore (table : String) (columns : List String) (rows : List (List τ))
  | delete (table : String) (condition : Condition τ)
  | select (columns : List String) (table : String) (condition : Condition τ) (order : Order)
  /-- The greatest value of a column, or null where there is none. -/
  | greatest (column table : String)
  /-- Of the rows that meet a condition, those of positive rank whose rank is the least positive one
  in their group. -/
  | best (columns : List String) (table : String) (condition : Condition τ) (ranking : Ranking)
      (order : Order)
  /-- Any other text: a command of another kind, several commands, or none at all. -/
  | other (text : String)

/-! ## Written form -/

def commas (items : List String) : String := ", ".intercalate items

/-- Tuples of parameters, `width` in each, for a number of rows. -/
def placeholders (width rows : Nat) : String :=
  commas (List.replicate rows ("(" ++ commas (List.replicate width "?") ++ ")"))

def hexadecimal (bytes : List UInt8) : String :=
  let digits (b : UInt8) : List Char := [b.toNat / 16, b.toNat % 16].map Nat.digitChar
  String.ofList (bytes.flatMap digits)

/-- A text between single quotes; one inside it is written twice. -/
def quoted (s : String) : String :=
  let written (c : Char) : List Char := if c = '\'' then [c, c] else [c]
  "'" ++ String.ofList (s.toList.flatMap written) ++ "'"

def Value.written : Value → String
  | null => "NULL"
  | integer n => String.ofList (Text.integer n.toInt)
  | real x => x.text
  | text s => quoted s
  | blob bytes => "X'" ++ hexadecimal bytes ++ "'"

def Term.text : Term → String
  | parameter => "?"
  | literal v => v.written

def Column.text (c : Column) : String :=
  c.name ++ (match c.affinity with | .integer => " INTEGER" | .text => " TEXT") ++
    (match c.rule with | .required => " NOT NULL" | .key => " PRIMARY KEY")

/-- The columns of a table one to a line. -/
def Layout.text (l : Layout) : String :=
  let numbering := l.rowNumber.toList.map (· ++ " INTEGER PRIMARY KEY AUTOINCREMENT NOT NULL")
  l.name ++ " (\n" ++
    ",\n".intercalate ((numbering ++ l.columns.map Column.text).map ("    " ++ ·)) ++ "\n)"

def Condition.text : Condition Term → String
  | always => ""
  | between column low high => s!" WHERE {column} BETWEEN {low.text} AND {high.text}"
  | equals column value => s!" WHERE {column} = {value.text}"
  | atMost column value => s!" WHERE {column} <= {value.text}"

def Order.text : Order → String
  | insertion => ""
  | ascending column => s!" ORDER BY {column} ASC"
  | descending column => s!" ORDER BY {column} DESC"

/-- The order by the columns of a named row source. -/
def Order.within (source : String) : Order → Order
  | insertion => insertion
  | ascending column => ascending s!"{source}.{column}"
  | descending column => descending s!"{source}.{column}"

def tuples (rows : List (List Term)) : String :=
  commas (rows.map fun row => "(" ++ commas (row.map Term.text) ++ ")")

def Ranking.text (r : Ranking) : String :=
  let arms := r.ranks.map fun (word, rank) =>
    " WHEN " ++ (Value.text word).written ++ " THEN " ++ Text.natural rank
  "CASE " ++ r.column ++ String.join arms ++ " ELSE 0 END"

def bestText (columns : List String) (table : String) (condition : Condition Term)
    (ranking : Ranking) (order : Order) : String :=
  let columns := commas columns
  let group := ranking.group
  let order := order.within "candidate"
  s!"WITH ranked_{table} AS (SELECT {columns}, {ranking.text} AS placement_rank " ++
    s!"FROM {table}{condition.text}) SELECT {columns} FROM ranked_{table} AS candidate " ++
    "WHERE candidate.placement_rank > 0 AND candidate.placement_rank = " ++
    s!"(SELECT MIN(placement_rank) FROM ranked_{table} WHERE {group} = candidate.{group} " ++
    s!"AND placement_rank > 0){order.text};"

def Command.text : Command Term → String
  | createTable layout => s!"\nCREATE TABLE IF NOT EXISTS {layout.text};"
  | createNewTable layout => s!"\nCREATE TABLE {layout.text};"
  | createIndex name table columns =>
    s!"CREATE INDEX IF NOT EXISTS {name} ON {table}({commas columns});"
  | dropTable name => s!"DROP TABLE {name};"
  | dropIndex name => s!"DROP INDEX {name};"
  | insert table columns rows => s!"INSERT INTO {table} ({commas columns}) VALUES {tuples rows};"
  | insertOrIgnore table columns rows =>
    s!"INSERT OR IGNORE INTO {table} ({commas columns}) VALUES {tuples rows};"
  | delete table condition => s!"DELETE FROM {table}{condition.text};"
  | select columns table condition order =>
    s!"SELECT {commas columns} FROM {table}{condition.text}{order.text};"
  | greatest column table => s!"SELECT MAX({column}) FROM {table};"
  | best columns table condition ranking order => bestText columns table condition ranking order
  | other text => text

/-! ## Parameters -/

namespace Condition

def terms {τ : Type} : Condition τ → List τ
  | always => []
  | between _ low high => [low, high]
  | equals _ value => [value]
  | atMost _ value => [value]

end Condition

namespace Command

def terms {τ : Type} : Command τ → List τ
  | insert _ _ rows | insertOrIgnore _ _ rows => rows.flatten
  | delete _ condition | select _ _ condition _ | best _ _ condition _ _ => condition.terms
  | _ => []

def parameterCount (c : Command Term) : Nat := c.terms.count .parameter

end Command

/-- The values still to be put in the place of parameters. -/
abbrev Filling := StateT (List Value) Option

/-- A literal stands for itself, a parameter for the next value. -/
def Term.fill : Term → Filling Value
  | literal v => pure v
  | parameter => fun
    | [] => none
    | v :: rest => some (v, rest)

def Condition.fill : Condition Term → Filling (Condition Value)
  | always => pure always
  | between column low high => do
    let low ← low.fill
    let high ← high.fill
    pure (between column low high)
  | equals column value => return equals column (← value.fill)
  | atMost column value => return atMost column (← value.fill)

def fillRows (rows : List (List Term)) : Filling (List (List Value)) :=
  rows.mapM fun row => row.mapM Term.fill

/-- Puts values in the place of the parameters, as far as they go. -/
def Command.fillFrom : Command Term → Filling (Command Value)
  | createTable layout => pure (createTable layout)
  | createNewTable layout => pure (createNewTable layout)
  | createIndex name table columns => pure (createIndex name table columns)
  | dropTable name => pure (dropTable name)
  | dropIndex name => pure (dropIndex name)
  | insert table columns rows => return insert table columns (← fillRows rows)
  | insertOrIgnore table columns rows => return insertOrIgnore table columns (← fillRows rows)
  | delete table condition => return delete table (← condition.fill)
  | select columns table condition order => return select columns table (← condition.fill) order
  | greatest column table => pure (greatest column table)
  | best columns table condition ranking order =>
    return best columns table (← condition.fill) ranking order
  | other text => pure (other text)

/-- The command with values in the place of its parameters; there must be as many values as
parameters. -/
def Command.fill (c : Command Term) (values : List Value) : Option (Command Value) :=
  match c.fillFrom values with
  | some (filled, []) => some filled
  | _ => none

end AdLedger.Sql
