import AdLedger.Json.Reader
import AdLedger.Sql.Database

/-!
# Snapshots

A database as a document, and the database that a document describes. This is how a database is kept
in a file.
-/

namespace AdLedger.Sql

/-- The whole number that a text denotes. -/
def integer? : List Char → Option Int
  | '-' :: digits => (Text.natural? digits).map fun n => -(n : Int)
  | digits => (Text.natural? digits).map Int.ofNat

namespace Value

/-- A whole number stands for itself, and so does a text; a blob is the list of its bytes, a real
number a fraction, and an infinity says whether it is negative. -/
def toJson : Value → Json
  | null => .null
  | integer n => .number (Text.integer n.toInt)
  | real (.finite x) => .record [("numerator", .number (Text.integer x.num)),
      ("denominator", .ofNat x.den)]
  | real (.infinite negative) => .bool negative
  | text s => .ofString s
  | blob bytes => .array (bytes.map fun b => .ofNat b.toNat)

def ofJson? (j : Json) : Option Value :=
  match j with
  | .null => some null
  | .number written => (integer? written).map fun n => integer (Int64.ofInt n)
  | .bool negative => some (real (.infinite negative))
  | .text _ => j.string?.map text
  | .array items => (items.mapM Json.nat?).map fun bytes => blob (bytes.map UInt8.ofNat)
  | .object _ => do
    match ← j.fields? ["numerator", "denominator"] with
    | [some (.number numerator), some denominator] =>
      return real (.finite (mkRat (← integer? numerator) (← denominator.nat?)))
    | _ => none

end Value

namespace Column

def toJson (c : Column) : Json :=
  .record [("name", .ofString c.name), ("integer", .bool (c.affinity = .integer)),
    ("key", .bool (c.rule = .key))]

def ofJson? (j : Json) : Option Column := do
  match ← j.fields? ["name", "integer", "key"] with
  | [some name, some (.bool isInteger), some (.bool isKey)] =>
    return ⟨← name.string?, if isInteger then .integer else .text,
      if isKey then .key else .required⟩
  | _ => none

end Column

namespace Table

def toJson (t : Table) : Json :=
  .record [("name", .ofString t.layout.name),
    ("numbered", .ofOption (t.layout.rowNumber.map .ofString)),
    ("columns", .array (t.layout.columns.map Column.toJson)),
    ("rows", .array (t.rows.map fun r => .array (r.map Value.toJson)))]

/-- The name of the column that numbers rows, if there is one. -/
def numbered? : Json → Option (Option String)
  | .null => some none
  | j => j.string?.map some

def ofJson? (j : Json) : Option Table := do
  match ← j.fields? ["name", "numbered", "columns", "rows"] with
  | [some name, some numbered, some columns, some rows] =>
    let columns ← (← columns.items?).mapM Column.ofJson?
    let rows ← (← rows.items?).mapM fun r => do (← r.items?).mapM Value.ofJson?
    return ⟨⟨← name.string?, ← numbered? numbered, columns⟩, rows⟩
  | _ => none

end Table

namespace Index

def toJson (i : Index) : Json :=
  .record [("name", .ofString i.name), ("table", .ofString i.table),
    ("columns", .array (i.columns.map .ofString))]

def ofJson? (j : Json) : Option Index := do
  match ← j.fields? ["name", "table", "columns"] with
  | [some name, some table, some columns] =>
    return ⟨← name.string?, ← table.string?, ← (← columns.items?).mapM Json.string?⟩
  | _ => none

end Index

namespace Database

/-- How the file of a database begins. -/
def signature : String := "ad ledger database\n"

def toJson (db : Database) : Json :=
  .record [("tables", .array (db.tables.map Table.toJson)),
    ("indexes", .array (db.indexes.map Index.toJson))]

def ofJson? (j : Json) : Option Database := do
  match ← j.fields? ["tables", "indexes"] with
  | [some tables, some indexes] =>
    return ⟨← (← tables.items?).mapM Table.ofJson?, ← (← indexes.items?).mapM Index.ofJson?⟩
  | _ => none

def snapshot (db : Database) : String := signature ++ db.toJson.line

def ofSnapshot? (content : String) : Option Database :=
  if content.startsWith signature then
    (Json.read? (String.ofList (content.toList.drop signature.length))).bind ofJson?
  else none

end Database
end AdLedger.Sql
