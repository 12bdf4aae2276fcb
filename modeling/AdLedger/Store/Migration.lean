import AdLedger.Store.Engine
import AdLedger.Store.Schema

/-!
# Migration

Bringing the tables of a database up to date. The versions already applied are recorded in a table
of their own; the tables are created if there is none, else changed version by version, and the
versions reached are recorded in the same transaction. A database of a later version is left as it
is. The hooks of tables are called between the transaction that asks for the version and the one
that carries out what they give; `bringUp` keeps which of them have been called.
-/

namespace AdLedger.Store

open Sql
open Time (Instant)

variable {σ : Type} [Engine σ]

/-- Creates the table of versions and asks for the greatest. -/
def askVersion : List Statement :=
  [.execute (.createTable versionLayout),
    .step (.greatest "version" versionTableName) [] [.int]]

/-- The version that a recorded number stands for; none if it is outside the range of versions. -/
def SchemaVersion.ofInt (n : Int) : SchemaVersion :=
  if 0 ≤ n ∧ n < UInt32.size then ⟨n.toNat⟩ else .none

/-- The greatest version recorded. -/
def storedVersion : Work σ SchemaVersion := do
  let rows ← transact askVersion
  return .ofInt (intAt (rows.head?.getD []) 0).toInt

/-- The versions to apply after a stored one. -/
def missingVersions (stored : SchemaVersion) : List Nat :=
  (List.range (SchemaVersion.current.number - stored.number)).map (stored.number + 1 + ·)

/-- The steps that lead from a stored version to the current one. -/
def plan (stored : SchemaVersion) : List Step :=
  if stored.isCurrent then []
  else if stored = .none then [.create]
  else (missingVersions stored).map .migrate

/-- The tables in each step, in order. -/
def calls (tables : List TableHooks) (stored : SchemaVersion) : List (TableHooks × Step) :=
  (plan stored).flatMap fun step => tables.map (·, step)

/-- Records a version as applied, unless it is recorded already. -/
def recordVersion (now : Instant) (version : Nat) : Statement :=
  .run (.insertOrIgnore versionTableName ["version", "applied_at"] [[.parameter, .parameter]])
    [.int (Int64.ofNat version), .int (Int64.ofInt (now.micros / 1000))]

/-- An engine beside the hooks that have been called, the first one first. -/
structure Coordinator (σ : Type) where
  engine : σ
  called : List (TableHooks × Step)

instance : Engine (Coordinator σ) where
  transact statements c :=
    let (result, engine) := Engine.transact statements c.engine
    (result, { c with engine })

/-- Calls the hook of a table for a step, which gives statements. -/
def call (hook : TableHooks × Step) : Work (Coordinator σ) (List Statement) := do
  modify fun c => { c with called := c.called ++ [hook] }
  return hook.1.statements hook.2

/-- Brings tables up to date, and gives the version that is then in effect. -/
def bringUp (tables : List TableHooks) (now : Instant) : Work (Coordinator σ) SchemaVersion := do
  let stored ← storedVersion
  if stored.isCurrent then return stored
  let changes ← (calls tables stored).mapM call
  let _ ← transact (changes.flatten ++ (missingVersions stored).map (recordVersion now))
  return .current

/-- Brings tables up to date, whichever hooks this calls. -/
def ensureCurrent (tables : List TableHooks) (now : Instant) : Work σ SchemaVersion := fun s =>
  let (version, after) := bringUp tables now ⟨s, []⟩
  (version, after.engine)

/-- Brings the ledger's own table up to date. -/
def openLedger (now : Instant) : Work σ SchemaVersion := ensureCurrent [ledgerHooks] now

end AdLedger.Store
