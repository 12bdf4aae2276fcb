import AdLedger.Store.Columns

/-!
# Schema

The tables and indexes of the ledger, the versions in which they came about, and the statements that
bring each of them about. Every statement leaves alone what is there already.
-/

namespace AdLedger.Store

open Sql

/-- The version of a schema; 0 is that of a database without one. -/
structure SchemaVersion where
  number : Nat
  deriving DecidableEq

namespace SchemaVersion

def none : SchemaVersion := ⟨0⟩

/-- The version that this library creates and brings others up to. -/
def current : SchemaVersion := ⟨2⟩

/-- Whether there is nothing to bring up to date. -/
def isCurrent (v : SchemaVersion) : Bool := current.number ≤ v.number

def compare (v w : SchemaVersion) : Ordering := Ord.compare v.number w.number

def text (v : SchemaVersion) : String := "v" ++ Text.natural v.number

end SchemaVersion

def tableName : String := "ad_history"

/-- The affinity of a column for values of a declared type. -/
def affinityFor : ColumnType → Affinity
  | .int => .integer
  | .text => .text

/-- The table of events has its columns in the order of an item's values, none of them null. -/
def layout : Layout where
  name := tableName
  rowNumber := some "id"
  columns := columns.map fun (name, type) => ⟨name, affinityFor type, .required⟩

def versionTableName : String := "schema_migrations"

/-- The table of versions has a row for each version applied. -/
def versionLayout : Layout where
  name := versionTableName
  rowNumber := Option.none
  columns := [⟨"version", .integer, .key⟩, ⟨"applied_at", .integer, .required⟩]

def indexName (table : String) (columns : List String) : String :=
  table ++ "_" ++ "_".intercalate columns ++ "_index"

def createIndex (table : String) (columns : List String) : Statement :=
  .execute (.createIndex (indexName table columns) table columns)

/-- A text given to the database as it is. -/
def raw (text : String) : Statement := .execute (.other text)

/-- A step by which tables are brought up to date: their creation, or the change that a version
makes. -/
inductive Step where
  | create
  | migrate (version : Nat)
  deriving DecidableEq

/-- A table's part in the schema: what each step takes. -/
structure TableHooks where
  name : String
  statements : Step → List Statement

def createTable : Statement := .execute (.createTable layout)

def createColumnIndex (column : String) : Statement := createIndex tableName [column]

/-- What the table of events takes in each step. -/
def ledgerHooks : TableHooks where
  name := tableName
  statements
    | .create => createTable ::
        ["created_at", "confirmation_type", "placement_id", "creative_instance_id"].map
          createColumnIndex
    | .migrate 1 => createTable ::
        ["created_at", "confirmation_type", "placement_id"].map createColumnIndex
    | .migrate 2 => [createColumnIndex "creative_instance_id"]
    | .migrate _ => []

end AdLedger.Store
