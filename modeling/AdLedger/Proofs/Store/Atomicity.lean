import AdLedger.Proofs.Sql.Atomicity
import AdLedger.Proofs.Store.Commands
import AdLedger.Proofs.Store.Effects
import AdLedger.Proofs.Store.Versions

/-!
# All or nothing

A transaction takes effect as a whole or not at all (`Atomic`), through whatever connection it goes,
whatever the texts of its statements are and whichever of them is refused. The same is the case if
the connection refuses to begin the transaction, or to make lasting what all statements have done.
Saving, purging, finding and the hooks of tables send one transaction at most, so that they change
nothing when they fail (`Work.Restores`).
-/

namespace AdLedger.Store

open Sql
open Time (Instant)

/-! ## Transactions -/

section Connections

variable {ε σ τ : Type} {c : Connection ε σ τ} {statements : List Statement}

/-- Carries out statements together through a connection. -/
def through (c : Connection ε σ τ) (statements : List Statement) : Work σ (List Row) :=
  @transact σ (.ofConnection c) statements

theorem through_on (c : Connection ε σ τ) (statements : List Statement) (db : σ) :
    (through c statements).on db =
      ((c.transact statements db).1.mapError fun reason => .database (c.message reason),
        (c.transact statements db).2) := rfl

/-- Statements take effect together or not at all. -/
structure Atomic (c : Connection ε σ τ) (statements : List Statement) (db : σ) : Prop where
  /-- If all are carried out and may last, then the database is as the last one leaves it, and the
  result is that of the last query. -/
  carriedOut : ∀ t u results, c.start db = .ok t → Runs c t statements u results →
    c.commit u = .ok () →
      (through c statements).on db = (.ok (results.getLast?.getD []), c.now u)
  /-- If one of them is refused, then the database is as it was. -/
  stopped : ∀ t, c.start db = .ok t → Stops c t statements →
    ∃ reason, (through c statements).on db = (.error (.database (c.message reason)), db)
  notStarted : ∀ reason, c.start db = .error reason →
    (through c statements).on db = (.error (.database (c.message reason)), db)
  notCommitted : ∀ t u results reason, c.start db = .ok t → Runs c t statements u results →
    c.commit u = .error reason →
      (through c statements).on db = (.error (.database (c.message reason)), db)
  /-- There is no other case. -/
  settled : (∃ reason, c.start db = .error reason) ∨ ∃ t, c.start db = .ok t ∧
    ((∃ u results, Runs c t statements u results) ∨ Stops c t statements)

theorem atomic (hc : c.Lawful) (hw : ∀ s ∈ statements, c.Within s) (db : σ) :
    Atomic c statements db where
  carriedOut t u results hs hruns hcommit := by
    rw [through_on, Connection.transact_of_runs hs hruns hcommit]
    rfl
  stopped t hs hstops := by
    obtain ⟨reason, ht⟩ := Connection.transact_of_stops hc hw hs hstops
    exact ⟨reason, by rw [through_on, ht]; rfl⟩
  notStarted reason hs := by
    rw [through_on, Connection.transact_of_not_started hs]
    rfl
  notCommitted t u results reason hs hruns hcommit := by
    rw [through_on, Connection.transact_of_not_committed hc hw hs hruns hcommit]
    rfl
  settled := by
    cases hs : c.start db with
    | error reason => exact .inl ⟨reason, rfl⟩
    | ok t => exact .inr ⟨t, rfl, runs_or_stops c t statements⟩

/-- A transaction has an effect only if all of its statements are carried out and it may last. -/
theorem Atomic.cases {db : σ} (h : Atomic c statements db) :
    (∃ t u results, c.start db = .ok t ∧ Runs c t statements u results ∧ c.commit u = .ok () ∧
      (through c statements).on db = (.ok (results.getLast?.getD []), c.now u)) ∨
    ∃ failure, (through c statements).on db = (.error failure, db) := by
  obtain ⟨reason, hs⟩ | ⟨t, hs, ⟨u, results, hruns⟩ | hstops⟩ := h.settled
  · exact .inr ⟨_, h.notStarted reason hs⟩
  · cases hcommit : c.commit u with
    | ok =>
      exact .inl ⟨t, u, results, hs, hruns, hcommit, h.carriedOut t u results hs hruns hcommit⟩
    | error reason => exact .inr ⟨_, h.notCommitted t u results reason hs hruns hcommit⟩
  · obtain ⟨reason, ht⟩ := h.stopped t hs hstops
    exact .inr ⟨_, ht⟩

/-! ## Work that fails -/

theorem restores_through (hc : c.Lawful) (hw : ∀ s ∈ statements, c.Within s) :
    (through c statements).Restores := by
  intro db failure after h
  obtain ⟨t, u, results, -, -, -, ht⟩ | ⟨failure', ht⟩ := (atomic hc hw db).cases
  · cases ht.symm.trans h
  · cases ht.symm.trans h
    rfl

theorem restores_save (hc : c.Lawful) (settings : Settings) (items : List Item) :
    (@save σ (.ofConnection c) settings items).Restores := by
  unfold save
  dsimp only
  split
  · exact fun _ _ _ h => nomatch h
  · exact (restores_through hc fun s hs => hc.within s (plain_of_mem_inserts hs)).map _

theorem restores_purge (hc : c.Lawful) (settings : Settings) (now : Instant) :
    (@purge σ (.ofConnection c) settings now).Restores := by
  refine Work.fails_mk_bind (fun _ => rfl) fun cutoff _ => (restores_through hc ?_).map _
  intro s hs
  cases List.mem_singleton.1 hs
  exact hc.within _ (plain_forgetUpTo cutoff)

theorem restores_query (hc : c.Lawful) {command : Command Term} {values : List Scalar}
    (hw : c.Within (.step command values columnTypes)) :
    (@query σ (.ofConnection c) command values).Restores := by
  refine (restores_through hc ?_).map decodeValid
  intro s hs
  cases List.mem_singleton.1 hs
  exact hw

end Connections

/-! ## What shows at the end only -/

/-- The connection of a database that has room for so many tables, which shows only when what a
transaction has done is to last. -/
def limited (most : Nat) : Connection Refusal Database Pending :=
  { Database.connection with
    commit := fun t => if t.now.tables.length ≤ most then .ok () else .error (.notUnderstood "") }

theorem lawful_limited (most : Nat) : (limited most).Lawful where
  now_start := Database.lawful_connection.now_start
  rollback_start := Database.lawful_connection.rollback_start
  within := Database.lawful_connection.within

theorem perform_limited (most : Nat) (s : Statement) (t : Pending) :
    (limited most).perform s t = Database.connection.perform s t := rfl

end AdLedger.Store
