import AdLedger.Failure
import AdLedger.Sql.Transaction

/-!
# Engines

What the ledger needs of a database: something that carries out statements together or not at all.
Whatever has a connection is an engine, a `Database` among them, and so is a recorder, which keeps
what it is sent and gives a fixed answer.
-/

namespace AdLedger.Store

open Sql

/-- Something that carries out transactions: the rows of the last query, or why it failed. -/
class Engine (σ : Type) where
  transact : List Statement → σ → Except Failure (List Row) × σ

/-- Work with an engine. What the engine holds stays after a failure. -/
abbrev Work (σ : Type) := ExceptT Failure (StateM σ)

/-- Carries out statements together. -/
def transact {σ : Type} [Engine σ] (statements : List Statement) : Work σ (List Row) :=
  fun s => Engine.transact statements s

/-- Transactions through a connection. What it refuses is a failure of the database. -/
@[reducible] def Engine.ofConnection {ε σ τ : Type} (c : Connection ε σ τ) : Engine σ where
  transact statements s :=
    let (result, after) := c.transact statements s
    (result.mapError fun reason => .database (c.message reason), after)

instance : Engine Database := .ofConnection Database.connection

/-- An engine that keeps the transactions it is sent, the last one first, and answers each of them
alike. -/
structure Recorder where
  sent : List (List Statement)
  answer : Except Failure (List Row)

instance : Engine Recorder where
  transact statements r := (r.answer, { r with sent := statements :: r.sent })

end AdLedger.Store
