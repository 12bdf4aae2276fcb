import AdLedger.Proofs.Sql.Schema
import AdLedger.Proofs.Store.Coordination

/-!
# Opening a ledger

Opening a new database makes a ledger without rows of it (`openLedger_on_empty`), and a ledger stays
one whatever happens to its events (`Ready.of_apart`). Opening it again changes nothing.
-/

namespace AdLedger.Store

open Sql
open Time (Instant)

/-- The database is a ledger that is up to date, with these rows. -/
structure Ready (db : Database) (rows : List Record) : Prop where
  events : Holds db rows
  versioned : Versioned db
  current : SchemaVersion.current.number ≤ highest db

variable {db after : Database} {rows : List Record}

theorem Ready.of_apart {more : List Record} (h : Ready db rows) (ha : Holds after more)
    (hapart : Apart db after) : Ready after more := by
  obtain ⟨t, ht⟩ := Option.isSome_iff_exists.1
    (Attempt.isSome_of_highest_pos (Nat.lt_of_lt_of_le (by decide) h.current))
  have hta := hapart versionTableName t sameName_tableName_versions ht
  refine ⟨ha, fun u hu => ?_, ?_⟩
  · cases hta.symm.trans hu
    exact h.versioned t ht
  · have hsame : recordedVersions after = recordedVersions db := by
      simp only [recordedVersions, ht, hta]
    rw [highest, hsame]
    exact h.current

/-- Opening a ledger again changes nothing. -/
theorem Ready.openLedger_on (h : Ready db rows) (now : Instant) :
    (openLedger now : Work Database SchemaVersion).on db = (.ok ⟨highest db⟩, db) :=
  Attempt.outcome_of_le (a := ⟨[ledgerHooks], now⟩) h.versioned h.current

/-! ## A new ledger -/

/-- The database has the two tables of a ledger and no others, in either order. -/
def LedgerTables (db : Database) (versions rows : List Record) : Prop :=
  db.tables = [⟨versionLayout, versions⟩, ⟨layout, rows⟩] ∨
    db.tables = [⟨layout, rows⟩, ⟨versionLayout, versions⟩]

namespace LedgerTables

variable {versions : List Record}

theorem of_tables (h : LedgerTables db versions rows) (he : after.tables = db.tables) :
    LedgerTables after versions rows := by
  unfold LedgerTables
  rwa [he]

theorem holds (h : LedgerTables db versions rows) : Holds db rows := by
  have hv : sameName versionLayout.name tableName = false := sameName_versions_tableName
  have he : sameName layout.name tableName = true := sameName_refl _
  obtain ht | ht := h <;> rw [Holds, Database.table?, ht] <;> simp [hv, he]

theorem table?_versions (h : LedgerTables db versions rows) :
    db.table? versionTableName = some ⟨versionLayout, versions⟩ := by
  have hv : sameName versionLayout.name versionTableName = true := sameName_refl _
  have he : sameName layout.name versionTableName = false := sameName_tableName_versions
  obtain ht | ht := h <;> rw [Database.table?, ht] <;> simp [hv, he]

theorem distinct (h : LedgerTables db versions rows) : db.Distinct := by
  have hv : sameName versionLayout.name layout.name = false := sameName_versions_tableName
  have he : sameName layout.name versionLayout.name = false := sameName_tableName_versions
  obtain ht | ht := h <;> rw [Database.Distinct, ht] <;> simp [hv, he]

theorem setRows (h : LedgerTables db versions rows) (more : List Record) :
    LedgerTables (db.setTable ⟨layout, more⟩) versions more := by
  have hv : sameName versionLayout.name layout.name = false := sameName_versions_tableName
  obtain ht | ht := h <;> unfold LedgerTables Database.setTable <;> simp [ht, hv]

theorem setVersions (h : LedgerTables db versions rows) (more : List Record) :
    LedgerTables (db.setTable ⟨versionLayout, more⟩) more rows := by
  have he : sameName layout.name versionLayout.name = false := sameName_tableName_versions
  obtain ht | ht := h <;> unfold LedgerTables Database.setTable <;> simp [ht, he]

/-- The names of indexes are longer than those of the tables. -/
theorem table?_indexName (h : LedgerTables db versions rows) {column : String}
    (hc : column ∈ columnNames) : db.table? (indexName tableName [column]) = none := by
  have hpos : ∀ c ∈ columnNames, c.length ≠ 0 := by decide
  have hlen : (indexName tableName [column]).length = 17 + column.length := by
    rw [indexName, show "_".intercalate [column] = column from rfl]
    simp only [String.length_append]
    rw [show tableName.length = 10 from rfl, show "_".length = 1 from rfl,
      show "_index".length = 6 from rfl]
    omega
  have hname : ∀ name : String, name.length ≤ 17 →
      sameName name (indexName tableName [column]) = false := by
    intro name hn
    have := hpos column hc
    exact sameName_eq_false_of_length (by omega)
  have hv := hname versionLayout.name (by decide)
  have he := hname layout.name (by decide)
  obtain ht | ht := h <;> rw [Database.table?, ht] <;> simp [hv, he]

end LedgerTables

theorem perform_createColumnIndex {t : Table} {column : String} (hc : column ∈ columnNames)
    (ht : db.table? tableName = some t) (hl : t.layout = layout)
    (hn : db.table? (indexName tableName [column]) = none) :
    ∃ after, (createColumnIndex column).perform db = .ok (after, none) ∧
      after.tables = db.tables := by
  have hcolumn : layout.hasColumn column = true := by
    have hp := position_of_mem hc
    unfold Layout.position at hp
    unfold Layout.hasColumn
    split at hp
    next hp' => simp [hp']
    next => cases hp
  obtain ⟨after, ha⟩ : ∃ after, db.addIndex ⟨indexName tableName [column], tableName, [column]⟩ =
      .ok after :=
    Database.addIndex_eq_ok (by simp) ht hn (by simpa [hl] using hcolumn)
  exact ⟨after, Statement.perform_execute rfl (Database.perform_createIndex ha),
    Database.tables_addIndex ha⟩

/-- Indexes of the table of events are created where no table has one of their names. -/
theorem performAll_createColumnIndexes_of_table? {t : Table} {names : List String}
    (hc : ∀ column ∈ names, column ∈ columnNames) (ht : db.table? tableName = some t)
    (hl : t.layout = layout)
    (hn : ∀ column ∈ names, db.table? (indexName tableName [column]) = none)
    (result : List Row) :
    ∃ after, db.performAll result (names.map createColumnIndex) = .ok (after, result) ∧
      after.tables = db.tables := by
  induction names generalizing db with
  | nil => exact ⟨db, rfl, rfl⟩
  | cons column names ih =>
    obtain ⟨hc, hcs⟩ := List.forall_mem_cons.1 hc
    obtain ⟨hn, hns⟩ := List.forall_mem_cons.1 hn
    obtain ⟨mid, hp, hm⟩ := perform_createColumnIndex hc ht hl hn
    have hfind : ∀ name, mid.table? name = db.table? name := fun name => by
      unfold Database.table?
      rw [hm]
    obtain ⟨after, ha, hat⟩ := ih hcs ((hfind _).trans ht) fun c h => (hfind _).trans (hns c h)
    exact ⟨after, (Database.performAll_cons hp _ _).trans ha, hat.trans hm⟩

theorem performAll_createColumnIndexes {versions : List Record} {names : List String}
    (hn : ∀ column ∈ names, column ∈ columnNames)
    (ht : LedgerTables db versions rows) (result : List Row) :
    ∃ after, db.performAll result (names.map createColumnIndex) = .ok (after, result) ∧
      after.tables = db.tables :=
  performAll_createColumnIndexes_of_table? hn ht.holds rfl
    (fun column hc => ht.table?_indexName (hn column hc)) result

theorem withVersions_empty : withVersions Database.empty = ⟨[⟨versionLayout, []⟩], []⟩ := rfl

theorem table?_layout_withVersions_empty :
    (withVersions Database.empty).table? layout.name = none := by
  have hv : sameName versionLayout.name layout.name = false := sameName_versions_tableName
  rw [withVersions_empty, Database.table?]
  simp [hv]

/-- The table of events is created beside that of versions, and then its indexes. -/
theorem performAll_create {names : List String} (hn : ∀ column ∈ names, column ∈ columnNames) :
    ∃ after, (withVersions Database.empty).performAll []
      (createTable :: names.map createColumnIndex) = .ok (after, []) ∧
      LedgerTables after [] [] := by
  have hcreate : createTable.perform (withVersions Database.empty) =
      .ok (⟨[⟨versionLayout, []⟩, ⟨layout, []⟩], []⟩, none) :=
    Statement.perform_execute rfl
      (Database.perform_createTable table?_layout_withVersions_empty rfl)
  have htables : LedgerTables ⟨[⟨versionLayout, []⟩, ⟨layout, []⟩], []⟩ [] [] := .inl rfl
  obtain ⟨after, hp, ht⟩ := performAll_createColumnIndexes hn htables []
  exact ⟨after, (Database.performAll_cons hcreate _ _).trans hp, htables.of_tables ht⟩

theorem statements_create : ∃ names : List String,
    ledgerHooks.statements .create = createTable :: names.map createColumnIndex ∧
      ∀ column ∈ names, column ∈ columnNames :=
  ⟨["created_at", "confirmation_type", "placement_id", "creative_instance_id"], rfl, by decide⟩

/-- Opening a new database makes a ledger of it that has no rows. -/
theorem openLedger_on_empty (now : Instant) :
    ∃ db, (openLedger now : Work Database SchemaVersion).on Database.empty = (.ok .current, db) ∧
      Ready db [] := by
  obtain ⟨names, hcreate, hn⟩ := statements_create
  obtain ⟨after, hp, ht⟩ := performAll_create hn
  have hwork : Attempt.work ⟨[ledgerHooks], now⟩ 0 =
      createTable :: names.map createColumnIndex := by
    rw [← hcreate]
    simp [Attempt.work, Attempt.hooksFrom]
  rw [← hwork] at hp
  have hlt : 0 < SchemaVersion.current.number := by decide
  refine ⟨_, Attempt.outcome_committed Attempt.versioned_empty (.inr rfl)
    (Attempt.spares_ledger now) hlt hp, ?_, ?_, ?_⟩
  · unfold Attempt.recorded
    rw [show highest Database.empty = 0 from rfl, ht.table?_versions]
    exact Database.table?_setTable_other ht.holds sameName_versions_tableName
  · exact Attempt.versioned_recorded ht.table?_versions (by simp)
  · exact (Attempt.highest_recorded hlt ht.table?_versions rfl).ge

end AdLedger.Store
