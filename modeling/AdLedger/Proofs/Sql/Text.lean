import AdLedger.Sql.Command

/-!
# Written commands

Commands that are written without ambiguity (`Command.Plain`): their names are words that mean
nothing else, and their values are parameters.
-/

namespace AdLedger.Sql

/-! ## Names -/

/-- Whether a character may stand in a name. -/
def isNameChar (c : Char) : Bool := c.isAlphanum || c = '_'

/-- The words of the language. -/
def keywords : List String :=
  ["AND", "AS", "ASC", "AUTOINCREMENT", "BETWEEN", "BY", "CASE", "CREATE", "DELETE", "DESC", "DROP",
    "ELSE", "END", "EXISTS", "FROM", "IF", "IGNORE", "INDEX", "INSERT", "INTEGER", "INTO", "KEY",
    "NOT", "NULL", "ON", "OR", "ORDER", "PRIMARY", "SELECT", "TABLE", "TEXT", "THEN", "VALUES",
    "WHEN", "WHERE", "WITH"]

/-- A name that can be written as it is. -/
structure IsName (s : String) : Prop where
  start : s.toList.head?.any (fun c => !c.isDigit) = true
  chars : s.toList.all isNameChar = true
  notKeyword : s.toList.map Char.toUpper ∉ keywords.map String.toList

theorem isName_iff {s : String} :
    IsName s ↔ s.toList.head?.any (fun c => !c.isDigit) = true ∧ s.toList.all isNameChar = true ∧
      s.toList.map Char.toUpper ∉ keywords.map String.toList :=
  ⟨fun h => ⟨h.start, h.chars, h.notKeyword⟩, fun h => ⟨h.1, h.2.1, h.2.2⟩⟩

instance : DecidablePred IsName := fun _ => decidable_of_iff' _ isName_iff

def Layout.names (l : Layout) : List String :=
  l.name :: (l.rowNumber.toList ++ l.columns.map Column.name)

def Condition.names {τ : Type} : Condition τ → List String
  | always => []
  | between column _ _ | equals column _ | atMost column _ => [column]

def Order.names : Order → List String
  | insertion => []
  | ascending column | descending column => [column]

def Ranking.names (r : Ranking) : List String := r.column :: r.group :: r.ranks.map (·.1)

def Command.names {τ : Type} : Command τ → List String
  | createTable layout | createNewTable layout => layout.names
  | createIndex name table columns => name :: table :: columns
  | dropTable name | dropIndex name => [name]
  | insert table columns _ | insertOrIgnore table columns _ => table :: columns
  | delete table condition => table :: condition.names
  | select columns table condition order => table :: (columns ++ condition.names ++ order.names)
  | greatest column table => [column, table]
  | best columns table condition ranking order =>
    table :: (columns ++ condition.names ++ ranking.names ++ order.names)
  | other _ => []

/-- A command in names and parameters. -/
structure Command.Plain (c : Command Term) : Prop where
  understood : ∀ text, c ≠ .other text
  names : ∀ n ∈ c.names, IsName n
  terms : ∀ t ∈ c.terms, t = .parameter

end AdLedger.Sql
