import AdLedger.Proofs.Store.Effects
import AdLedger.Proofs.Store.Opening

/-!
# Bringing up to date what is up to date

A database that has been brought up to date from an earlier version (`UpToDate`) is left exactly as
it is by the upgrade from that version, sent once more at any later time (`UpToDate.upgrade_on`).
Every statement of an upgrade creates what is missing or records a version that is not recorded, so
that none of them has anything to do. Saving and purging keep a database up to date.
-/

namespace AdLedger.Store

open Sql
open Time (Instant)

variable {start db after : Database} {rows more : List Record}

/-- The rows of the table of events, none without the table. -/
def eventRows (db : Database) : List Record := db.rowsOf tableName

theorem Holds.eventRows_eq (h : Holds db rows) : eventRows db = rows := Database.rowsOf_of_table? h

theorem eventRows_withVersions (db : Database) : eventRows (withVersions db) = eventRows db := by
  unfold withVersions
  split
  · rfl
  · have hname : sameName versionLayout.name tableName = false := sameName_versions_tableName
    unfold eventRows Database.rowsOf Database.table?
    simp [hname]

/-! ## Statements of the ledger -/

theorem creates_of_mem_ledger {step : Step} {s : Statement}
    (h : s ∈ ledgerHooks.statements step) : s.Creates := by
  obtain rfl | ⟨column, rfl⟩ := Attempt.mem_statements_ledger h
  · exact .table layout
  · exact .index _ _ _

/-- What a version brings about is among what is created at once. -/
theorem mem_create_of_mem {step : Step} {s : Statement} (h : s ∈ ledgerHooks.statements step) :
    s ∈ ledgerHooks.statements .create := by
  unfold ledgerHooks at h ⊢
  dsimp only at h ⊢
  split at h
  · exact h
  · simp only [List.map_cons, List.map_nil, List.mem_cons, List.not_mem_nil] at h ⊢
    tauto
  · simp only [List.map_cons, List.map_nil, List.mem_cons, List.not_mem_nil] at h ⊢
    tauto
  · cases h

theorem mem_migrate_of_mem_create {s : Statement} (h : s ∈ ledgerHooks.statements .create) :
    s ∈ ledgerHooks.statements (.migrate 1) ∨ s ∈ ledgerHooks.statements (.migrate 2) := by
  unfold ledgerHooks at h ⊢
  simp only [List.map_cons, List.map_nil, List.mem_cons, List.not_mem_nil] at h ⊢
  tauto

/-- An upgrade carries out steps of the ledger and records versions. -/
theorem mem_upgrade {stored : SchemaVersion} {now : Instant} {s : Statement}
    (h : s ∈ upgrade [ledgerHooks] stored now) :
    (∃ step, s ∈ ledgerHooks.statements step) ∨
      ∃ v ∈ missingVersions stored, s = recordVersion now v := by
  obtain h | h := List.mem_append.1 h
  · obtain ⟨⟨table, step⟩, hc, hs⟩ := List.mem_flatMap.1 h
    obtain ⟨step', -, hc⟩ := List.mem_flatMap.1 hc
    obtain ⟨rfl, rfl⟩ : table = ledgerHooks ∧ step = step' := by simpa using hc
    exact .inl ⟨step, hs⟩
  · obtain ⟨v, hv, rfl⟩ := List.mem_map.1 h
    exact .inr ⟨v, hv, rfl⟩

/-- The tables and indexes of the ledger are all there. -/
def Furnished (db : Database) : Prop := ∀ step, ∀ s ∈ ledgerHooks.statements step, s.Settled db

theorem Furnished.of_schema (h : Furnished db) (he : after.schema = db.schema) :
    Furnished after :=
  fun step s hs => (h step s hs).of_schema (creates_of_mem_ledger hs) he

/-- A version that is recorded is not recorded again. -/
theorem settled_recordVersion {versions : List Record} {v : Nat}
    (h : db.table? versionTableName = some ⟨versionLayout, versions⟩) (hd : db.Distinct)
    (hv : ∃ r ∈ versions, Record.get r 0 = versionValue v) (now : Instant) :
    (recordVersion now v).Settled db := by
  have hzip : versionLayout.columns.zip (versionRecord now v) =
      [(⟨"version", .integer, .key⟩, versionValue v),
        (⟨"applied_at", .integer, .required⟩, .integer (Int64.ofInt (now.micros / 1000)))] := rfl
  have hany : (versions.any fun r => Record.get r 0 = .integer (Int64.ofNat v)) = true := by
    obtain ⟨r, hr, he⟩ := hv
    exact List.any_eq_true.2 ⟨r, hr, decide_eq_true he⟩
  have hallows : Table.allows ⟨versionLayout, versions⟩ (versionRecord now v) =
      .error (.keyTaken "version") := by
    unfold Table.allows
    simp only [hzip, List.forM_eq_forM, List.forM_cons, versionValue, position?_version, hany]
    rfl
  have hinsert : Table.insertAllowed ⟨versionLayout, versions⟩ [versionRecord now v] =
      ⟨versionLayout, versions⟩ := by
    simp only [Table.insertAllowed, hallows]
  unfold Statement.Settled
  rw [perform_recordVersion h, hinsert, Database.setTable_of_table? hd h]

/-! ## Opening and events -/

/-- Work that keeps the rows of events, whether it fails or not. -/
def Work.KeepsEvents {α : Type} (w : Work Database α) : Prop :=
  w.Always fun db after => eventRows after = eventRows db

theorem keepsEvents_transact {ss : List Statement} (hs : ∀ s ∈ ss, s.Spares tableName) :
    (transact ss : Work Database (List Row)).KeepsEvents :=
  fun _ => Database.rowsOf_transact hs

theorem spares_upgrade {stored : SchemaVersion} {now : Instant} {s : Statement}
    (hs : s ∈ upgrade [ledgerHooks] stored now) : s.Spares tableName := by
  intro n hn
  obtain ⟨step, hs⟩ | ⟨v, -, rfl⟩ := mem_upgrade hs
  · obtain rfl | ⟨_, rfl⟩ := Attempt.mem_statements_ledger hs <;> cases hn
  · cases hn
    exact sameName_versions_tableName

/-- What is created in an upgrade under the name of the events is their table. -/
theorem founds_upgrade {stored : SchemaVersion} {now : Instant} {s : Statement}
    (hs : s ∈ upgrade [ledgerHooks] stored now) : s.Founds layout := by
  intro l hl _
  obtain ⟨step, hs⟩ | ⟨v, -, rfl⟩ := mem_upgrade hs
  · obtain rfl | ⟨_, rfl⟩ := Attempt.mem_statements_ledger hs <;> cases hl
    rfl
  · cases hl

/-- To open a ledger does to a database what transactions do that do not change its events, but may
create their table. -/
theorem always_openLedger {R : Database → Database → Prop} (hrefl : ∀ db, R db db)
    (htrans : ∀ {s t u}, R s t → R t u → R s u)
    (ht : ∀ {ss : List Statement}, (∀ s ∈ ss, s.Spares tableName ∧ s.Founds layout) →
      (transact ss : Work Database (List Row)).Always R) (now : Instant) :
    (openLedger now : Work Database SchemaVersion).Always R := by
  have hask : ∀ s ∈ askVersion, s.Spares tableName ∧ s.Founds layout := by
    intro s hs
    constructor
    · intro n hn
      obtain rfl | hs := List.mem_cons.1 hs
      · cases hn
      · cases List.mem_singleton.1 hs
        cases hn
    · intro l hl hname
      obtain rfl | hs := List.mem_cons.1 hs
      · cases hl
        cases sameName_versions_tableName.symm.trans hname
      · cases List.mem_singleton.1 hs
        cases hl
  have hstored : (storedVersion : Work Database SchemaVersion).Always R :=
    Work.Always.map (ht hask) _
  rw [openLedger, ensureCurrent_eq]
  refine Work.Always.bind hstored htrans fun stored => ?_
  split
  · exact hrefl
  · exact Work.Always.map (ht fun s hs => ⟨spares_upgrade hs, founds_upgrade hs⟩) _

/-- To open a ledger keeps its events, also where it fails. -/
theorem keepsEvents_openLedger (now : Instant) :
    (openLedger now : Work Database SchemaVersion).KeepsEvents :=
  always_openLedger (R := fun db after => eventRows after = eventRows db) (fun _ => rfl)
    (fun h h' => h'.trans h) (fun hs => keepsEvents_transact fun s hmem => (hs s hmem).1) now

/-- A database with these rows of events, or without the table of events and without rows. -/
def HasRows (db : Database) (rows : List Record) : Prop :=
  Holds db rows ∨ db.table? tableName = none ∧ rows = []

theorem HasRows.eventRows_eq (h : HasRows db rows) : eventRows db = rows := by
  obtain h | ⟨h, rfl⟩ := h
  · exact h.eventRows_eq
  · rw [eventRows, Database.rowsOf, h]
    rfl

/-- The rows are the same after the ledger has been opened, also where this fails. -/
theorem HasRows.openLedger (h : HasRows db rows) (now : Instant) :
    HasRows ((openLedger now : Work Database SchemaVersion).on db).2 rows := by
  refine always_openLedger (R := fun db after => HasRows db rows → HasRows after rows)
    (fun _ h => h) (fun h h' hs => h' (h hs)) (fun {ss} hss db h => ?_) now db h
  rw [transact_on, Database.transact_eq]
  split
  next hp =>
    obtain h | ⟨hnone, rfl⟩ := h
    · exact .inl (Database.table?_performAll h (fun s hs => (hss s hs).1) hp)
    · have hnone' : db.table? layout.name = none := hnone
      obtain hnone | hnew := Database.table?_performAll_of_none hnone' hss hp
      · exact .inr ⟨hnone, rfl⟩
      · exact .inl hnew
  next => exact h

/-! ## Databases that are up to date -/

/-- A database has been brought up to date from an earlier one, and has these events. -/
structure UpToDate (start db : Database) (rows : List Record) : Prop where
  events : Holds db rows
  versions : ∃ versions, db.table? versionTableName = some ⟨versionLayout, versions⟩ ∧
    versions.map versionOf = recordedVersions start ++ Attempt.versionsFrom (highest start) ∧
    ∀ r ∈ versions, ∃ v < UInt32.size, Record.get r 0 = versionValue v
  /-- The tables and indexes are those that opening the earlier one leads to. -/
  schema : ∀ now, db.schema = ((openLedger now : Work Database SchemaVersion).on start).2.schema
  distinct : db.Distinct
  furnished : Furnished db

namespace UpToDate

theorem of_apart (h : UpToDate start db rows) (ha : Holds after more) (hapart : Apart db after)
    (hschema : after.schema = db.schema) : UpToDate start after more where
  events := ha
  versions := by
    obtain ⟨versions, ht, hv⟩ := h.versions
    exact ⟨versions, hapart versionTableName _ sameName_tableName_versions ht, hv⟩
  schema now := hschema.trans (h.schema now)
  distinct := h.distinct.of_schema hschema
  furnished := h.furnished.of_schema hschema

theorem recordedVersions_eq (h : UpToDate start db rows) :
    recordedVersions db = recordedVersions start ++ Attempt.versionsFrom (highest start) := by
  obtain ⟨versions, ht, hv, -⟩ := h.versions
  rw [recordedVersions, ht]
  exact hv

theorem highest_eq (h : UpToDate start db rows)
    (hb : highest start < SchemaVersion.current.number) :
    highest db = SchemaVersion.current.number := by
  rw [highest, h.recordedVersions_eq, List.foldl_append]
  exact Attempt.foldl_max_versionsFrom hb.le

/-- A client that asks is told that there is nothing to do. -/
theorem storedVersion_on (h : UpToDate start db rows)
    (hb : highest start < SchemaVersion.current.number) :
    (storedVersion : Work Database SchemaVersion).on db = (.ok .current, db) := by
  obtain ⟨versions, ht, -, hv⟩ := h.versions
  have hsome : (db.table? versionTableName).isSome = true := Option.isSome_of_eq_some ht
  have hversioned : Versioned db := by
    intro t ht'
    cases ht.symm.trans ht'
    exact ⟨rfl, hv⟩
  rw [Store.storedVersion_on hversioned (.inl hsome), Attempt.withVersions_eq hsome,
    h.highest_eq hb]

/-- To bring the database up to date once more, from the version that it had before, changes
nothing. -/
theorem upgrade_on (h : UpToDate start db rows) (now : Instant) :
    (transact (upgrade [ledgerHooks] ⟨highest start⟩ now) : Work Database (List Row)).on db =
      (.ok [], db) := by
  obtain ⟨versions, ht, hmap, hv⟩ := h.versions
  have hsettled : ∀ s ∈ upgrade [ledgerHooks] ⟨highest start⟩ now, s.Settled db := by
    intro s hs
    obtain ⟨step, hs⟩ | ⟨v, hmem, rfl⟩ := mem_upgrade hs
    · exact h.furnished step s hs
    · rw [Attempt.missingVersions_eq] at hmem
      have hrecorded : v ∈ versions.map versionOf := hmap ▸ List.mem_append_right _ hmem
      obtain ⟨r, hr, rfl⟩ := List.mem_map.1 hrecorded
      obtain ⟨w, hw, hrw⟩ := hv r hr
      exact settled_recordVersion ht h.distinct ⟨r, hr, by rwa [versionOf_eq hw hrw]⟩ now
  rw [transact_on, Database.transact_eq, Database.performAll_of_settled hsettled]
  rfl

end UpToDate

/-! ## Saving and purging -/

/-- Work that keeps the tables and indexes as they are. -/
def Work.KeepsSchema {α : Type} (w : Work Database α) : Prop :=
  w.Always fun db after => db.Distinct → after.schema = db.schema

theorem keepsSchema_transact {ss : List Statement}
    (hs : ∀ s ∈ ss, s.command.changesSchema = false) :
    (transact ss : Work Database (List Row)).KeepsSchema := by
  intro db hd
  rw [transact_on, Database.transact_eq]
  cases hp : db.performAll [] ss with
  | ok p => exact Database.schema_performAll hd hs hp
  | error refusal => rfl

theorem changesSchema_of_mem_inserts {size : Nat} {items : List Item} {s : Statement}
    (h : s ∈ inserts size items) : s.command.changesSchema = false := by
  obtain ⟨batch, -, hb⟩ := List.mem_filterMap.1 h
  obtain ⟨-, rfl⟩ : _ ∧ Statement.run _ _ = s := by simpa [insertBatch] using hb
  rfl

theorem keepsSchema_save (settings : Settings) (items : List Item) :
    (save settings items : Work Database Unit).KeepsSchema := by
  unfold save
  dsimp only
  split
  · exact fun _ _ => rfl
  · exact Work.Always.map (keepsSchema_transact fun _ => changesSchema_of_mem_inserts) _

theorem keepsSchema_purge (settings : Settings) (now : Instant) :
    (purge settings now : Work Database Unit).KeepsSchema := by
  intro db hd
  cases hc : settings.cutoff now with
  | error failure => rw [purge_on_error hc]
  | ok cutoff =>
    have hforget : ∀ s ∈ [forgetUpTo cutoff], s.command.changesSchema = false := by
      intro s hs
      cases List.mem_singleton.1 hs
      rfl
    have hmap := Work.Always.map (keepsSchema_transact hforget) fun _ => ()
    rw [purge, hc]
    exact hmap db hd

/-! ## Databases that can be brought up to date -/

/-- A database of an earlier version, for which the hooks of the ledger can be carried out. -/
structure Openable (start : Database) : Prop where
  versioned : Versioned start
  nameFree : NameFree start
  behind : highest start < SchemaVersion.current.number
  created : ∃ after, (withVersions start).performAll []
      (Attempt.work ⟨[ledgerHooks], .epoch⟩ (highest start)) = .ok (after, []) ∧
    Holds after (eventRows start) ∧ after.Distinct ∧ Furnished after

/-- The upgrade of a database that has been asked for its version brings it up to date. -/
theorem Openable.upgrade_on (h : Openable start) (now : Instant) :
    ∃ after, (transact (upgrade [ledgerHooks] ⟨highest start⟩ now) :
        Work Database (List Row)).on (withVersions start) = (.ok [], after) ∧
      UpToDate start after (eventRows start) := by
  obtain ⟨mid, hp, hholds, hdistinct, hfurnished⟩ := h.created
  have hp : ∀ now', (withVersions start).performAll []
      (Attempt.work ⟨[ledgerHooks], now'⟩ (highest start)) = .ok (mid, []) := fun _ => hp
  obtain ⟨versions, ht, hversions, hold⟩ :=
    Attempt.table?_of_work h.versioned (Attempt.spares_ledger now) (hp now)
  have hschema : ∀ now' : Instant,
      (Attempt.recorded ⟨[ledgerHooks], now'⟩ (highest start) mid).schema = mid.schema := by
    intro now'
    unfold Attempt.recorded
    rw [ht]
    exact Database.schema_setTable hdistinct ht rfl
  refine ⟨Attempt.recorded ⟨[ledgerHooks], now⟩ (highest start) mid, ?_, ?_, ?_, ?_, ?_, ?_⟩
  · have hupgrade : upgrade [ledgerHooks] ⟨highest start⟩ now = _ :=
      Attempt.upgrade_eq (a := ⟨[ledgerHooks], now⟩) h.behind
    have hrecords := Attempt.performAll_committed (a := ⟨[ledgerHooks], now⟩) h.behind ht hold []
    rw [transact_on, Database.transact_eq, hupgrade, Database.performAll_append_of_ok (hp now),
      hrecords]
    rfl
  · unfold Attempt.recorded
    rw [ht]
    exact Database.table?_setTable_other hholds sameName_versions_tableName
  · refine ⟨_, Attempt.table?_recorded ht, ?_, ?_⟩
    · rw [List.map_append, hversions, Attempt.versionOf_versionRecords]
    · intro r hr
      obtain hr | hr := List.mem_append.1 hr
      · obtain ⟨v, hv, hrv, -⟩ := hold r hr
        exact ⟨v, hv, hrv⟩
      · obtain ⟨v, hv, rfl⟩ := List.mem_map.1 hr
        exact ⟨v, (Attempt.lt_of_mem_versionsFrom hv).2, rfl⟩
  · intro now'
    have ho : (openLedger now' : Work Database SchemaVersion).on start = _ :=
      Attempt.outcome_committed (a := ⟨[ledgerHooks], now'⟩) h.versioned h.nameFree
        (Attempt.spares_ledger now') h.behind (hp now')
    rw [ho, hschema now, hschema now']
  · exact hdistinct.of_schema (hschema now)
  · exact hfurnished.of_schema (hschema now)

theorem openable_empty : Openable Database.empty := by
  obtain ⟨names, hcreate, hn⟩ := statements_create
  obtain ⟨after, hp, ht⟩ := performAll_create hn
  have hwork : Attempt.work ⟨[ledgerHooks], .epoch⟩ 0 =
      createTable :: names.map createColumnIndex := by
    rw [← hcreate]
    simp [Attempt.work, Attempt.hooksFrom]
  refine ⟨Attempt.versioned_empty, .inr rfl, by decide, after, ?_, ht.holds, ht.distinct, ?_⟩
  · exact (congrArg _ hwork).trans hp
  · intro step s hs
    rw [← hcreate] at hp
    exact Database.settled_performAll (fun _ => creates_of_mem_ledger) hp s (mem_create_of_mem hs)

/-- A ledger of the first version: that version is the only one recorded, and what it brings about
is there. The rows may be any. -/
structure AtFirst (db : Database) (rows : List Record) : Prop where
  tables : ∃ r, Record.get r 0 = versionValue 1 ∧ LedgerTables db [r] rows
  migrated : ∀ s ∈ ledgerHooks.statements (.migrate 1), s.Settled db

theorem AtFirst.openable (h : AtFirst db rows) : Openable db := by
  obtain ⟨r, hr, ht⟩ := h.tables
  have hsome : (db.table? versionTableName).isSome = true :=
    Option.isSome_of_eq_some ht.table?_versions
  have hone : highest db = 1 := by
    rw [highest, recordedVersions, ht.table?_versions]
    simp [versionOf_eq (by decide) hr]
  have hcolumn : ∀ column ∈ ["creative_instance_id"], column ∈ columnNames := by decide
  obtain ⟨after, hp, hafter⟩ := performAll_createColumnIndexes hcolumn ht []
  have hlast := ht.of_tables hafter
  refine ⟨?_, .inl hsome, ?_, after, ?_, ?_, hlast.distinct, ?_⟩
  · intro t ht'
    cases ht.table?_versions.symm.trans ht'
    refine ⟨rfl, fun s hs => ?_⟩
    cases List.mem_singleton.1 hs
    exact ⟨1, by decide, hr⟩
  · rw [hone]
    decide
  · rw [hone, Attempt.withVersions_eq hsome]
    exact hp
  · rw [ht.holds.eventRows_eq]
    exact hlast.holds
  · have hcreates : ∀ s ∈ ["creative_instance_id"].map createColumnIndex, s.Creates :=
      fun s hs => creates_of_mem_ledger (show s ∈ ledgerHooks.statements (.migrate 2) from hs)
    intro step s hs
    obtain hs | hs := mem_migrate_of_mem_create (mem_create_of_mem hs)
    · exact Database.settled_of_performAll (h.migrated s hs) (creates_of_mem_ledger hs) hcreates hp
    · exact Database.settled_performAll hcreates hp s hs

def firstLedger (rows : List Record) : Database where
  tables := [⟨versionLayout, [versionRecord .epoch 1]⟩, ⟨layout, rows⟩]
  indexes := ["created_at", "confirmation_type", "placement_id"].map fun column =>
    ⟨indexName tableName [column], tableName, [column]⟩

theorem atFirst_firstLedger (rows : List Record) : AtFirst (firstLedger rows) rows := by
  have ht : LedgerTables (firstLedger rows) [versionRecord .epoch 1] rows := .inl rfl
  refine ⟨⟨_, rfl, ht⟩, fun s hs => ?_⟩
  have hcolumns : ∀ column ∈ ["created_at", "confirmation_type", "placement_id"],
      column ∈ columnNames := by decide
  obtain rfl | hs := List.mem_cons.1 hs
  · exact Statement.settled_createTable_iff.2 (Option.isSome_of_eq_some ht.holds)
  · obtain ⟨column, hc, rfl⟩ := List.mem_map.1 hs
    refine Statement.settled_createIndex_iff.2 ⟨by simp, Option.isSome_of_eq_some ht.holds,
      ht.table?_indexName (hcolumns column hc), ?_⟩
    exact List.find?_isSome.2 ⟨_, List.mem_map_of_mem hc, sameName_refl _⟩

/-- What the first version brings about in a new database makes a ledger of the first version,
whatever rows are put into it afterwards. -/
theorem exists_atFirst (now : Instant) (rows : List Record) :
    ∃ made, Database.empty.performAll [] (.execute (.createTable versionLayout) ::
        ledgerHooks.statements (.migrate 1) ++ [recordVersion now 1]) = .ok (made, []) ∧
      AtFirst (made.setTable ⟨layout, rows⟩) rows := by
  have hnames : ∀ column ∈ ["created_at", "confirmation_type", "placement_id"],
      column ∈ columnNames := by decide
  obtain ⟨mid, hp, ht⟩ := performAll_create hnames
  have hversions : (Statement.execute (.createTable versionLayout)).perform Database.empty =
      .ok (withVersions Database.empty, none) :=
    Statement.perform_execute rfl (perform_createVersions (.inr rfl))
  have hrecord := perform_recordVersion_of_new ht.table?_versions (v := 1) nofun now
  have hmade := ht.setVersions [versionRecord now 1]
  refine ⟨mid.setTable ⟨versionLayout, [versionRecord now 1]⟩, ?_, ⟨_, rfl, hmade.setRows rows⟩,
    fun s hs => ?_⟩
  · rw [List.cons_append, Database.performAll_cons hversions]
    exact (Database.performAll_append_of_ok hp _).trans (Database.performAll_cons hrecord [] [])
  · have hcreates : ∀ s ∈ ledgerHooks.statements (.migrate 1), s.Creates :=
      fun _ => creates_of_mem_ledger
    have hsettled := Database.settled_performAll hcreates hp s hs
    refine hsettled.of_schema (hcreates s hs) ?_
    have hversions := Database.schema_setTable ht.distinct ht.table?_versions
      (u := ⟨versionLayout, [versionRecord now 1]⟩) rfl
    have hrows := Database.schema_setTable hmade.distinct hmade.holds (u := ⟨layout, rows⟩) rfl
    exact hrows.trans hversions

end AdLedger.Store
