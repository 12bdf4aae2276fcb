import AdLedger.Settings.Basic
import AdLedger.Store.Engine
import AdLedger.Store.Schema

/-!
# The ledger

Keeping events, finding them again and forgetting them. Only valid items are kept and returned.
The items saved together go into one transaction, with one insert for every batch that holds a
valid one.
-/

namespace AdLedger.Store

open Sql
open Time (Instant)

variable {σ : Type} [Engine σ]

/-- A list in groups of `size`, the last one perhaps smaller. Groups have one element at least. -/
def batches {α : Type} (size : Nat) : List α → List (List α)
  | [] => []
  | x :: rest => (x :: rest.take (size - 1)) :: batches size (rest.drop (size - 1))
termination_by xs => xs.length

/-- The groups together are the list. -/
theorem flatten_batches {α : Type} (size : Nat) (xs : List α) : (batches size xs).flatten = xs := by
  fun_induction batches size xs with
  | case1 => rfl
  | case2 x rest ih => simp [ih]

/-- No group has more than `size` elements, and none is empty. -/
theorem length_of_mem_batches {α : Type} {size : Nat} (pos : 0 < size) {xs b : List α}
    (h : b ∈ batches size xs) : 0 < b.length ∧ b.length ≤ size := by
  fun_induction batches size xs with
  | case1 => simp at h
  | case2 x rest ih =>
    rcases List.mem_cons.1 h with rfl | h
    · simp only [List.length_cons, List.length_take]
      omega
    · exact ih h

def insertRows (rows : Nat) : Command Term :=
  .insert tableName columnNames
    (List.replicate rows (List.replicate columns.length .parameter))

/-- The insert for the valid items of a batch, if there are any. -/
def insertBatch (batch : List Item) : Option Statement :=
  let valid := batch.filter Item.isValid
  if valid.isEmpty then none else some (.run (insertRows valid.length) (encodeValid batch))

/-- The inserts for items, in batches. -/
def inserts (batchSize : Nat) (items : List Item) : List Statement :=
  (batches batchSize items).filterMap insertBatch

/-- Keeps the valid ones among items. Where there are none the engine is left alone. -/
def save (settings : Settings) (items : List Item) : Work σ Unit := do
  let statements := inserts settings.effectiveBatchSize items
  unless statements.isEmpty do
    let _ ← transact statements

/-- The items of the rows that a query returns. -/
def query (command : Command Term) (values : List Scalar) : Work σ (List Item) := do
  return decodeValid (← transact [.step command values columnTypes])

/-- From one time to another, both included. -/
def inRange : Condition Term := .between "created_at" .parameter .parameter

def rangeValues (start finish : Instant) : List Scalar :=
  [.int start.toPlatform, .int finish.toPlatform]

def newestFirst : Order := .descending "created_at"

/-- The items of a range of time, the newest first. -/
def itemsInRange (start finish : Instant) : Work σ (List Item) :=
  query (.select columnNames tableName inRange newestFirst) (rangeValues start finish)

/-- Events are ranked by what was done, within their placements. -/
def placementRanking : Ranking where
  column := "confirmation_type"
  ranks := ConfirmationType.ranked.map fun (t, rank) => (t.name, rank)
  group := "placement_id"

/-- The best items of each placement in a range of time, the newest first. -/
def bestInRange (start finish : Instant) : Work σ (List Item) :=
  query (.best columnNames tableName inRange placementRanking newestFirst)
    (rangeValues start finish)

def itemsOfCreative (id : String) : Work σ (List Item) :=
  query (.select columnNames tableName (.equals "creative_instance_id" .parameter) .insertion)
    [.text id]

/-- Forgets what was created at a time or before it. -/
def forgetUpTo (cutoff : Instant) : Statement :=
  .run (.delete tableName (.atMost "created_at" .parameter)) [.int cutoff.toPlatform]

/-- Forgets what is older than the retention period. -/
def purge (settings : Settings) (now : Instant) : Work σ Unit := do
  let cutoff ← ExceptT.mk (pure (settings.cutoff now))
  let _ ← transact [forgetUpTo cutoff]

end AdLedger.Store
