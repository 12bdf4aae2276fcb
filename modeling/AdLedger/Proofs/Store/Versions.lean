import AdLedger.Proofs.Store.Contents
import AdLedger.Store.Migration

/-!
# Recorded versions

The versions that a database records as applied (`recordedVersions`), and the greatest of them. The
ledger is told the greatest one (`storedVersion_on`), and recording versions that are new adds them
in their order (`performAll_recordVersions`).
-/

namespace AdLedger.Store

open Sql
open Time (Instant)

def versionValue (v : Nat) : Value := .integer (Int64.ofNat v)

def versionOf (r : Record) : Nat :=
  match Record.get r 0 with
  | .integer n => n.toInt.toNat
  | _ => 0

/-- The versions that a database records, none without a table of versions. -/
def recordedVersions (db : Database) : List Nat :=
  match db.table? versionTableName with
  | some t => t.rows.map versionOf
  | none => []

/-- The greatest version that a database records; 0 if there is none. -/
def highest (db : Database) : Nat := (recordedVersions db).foldl max 0

/-- What a database records as versions are numbers of 32 bits. -/
def Versioned (db : Database) : Prop :=
  ∀ t, db.table? versionTableName = some t → t.layout = versionLayout ∧
    ∀ r ∈ t.rows, ∃ v < UInt32.size, Record.get r 0 = versionValue v

/-- The database with a table of versions, one without rows if there was none. -/
def withVersions (db : Database) : Database :=
  if (db.table? versionTableName).isSome then db
  else { db with tables := db.tables ++ [⟨versionLayout, []⟩] }

/-- Nothing else has taken the name of the table of versions. -/
def NameFree (db : Database) : Prop :=
  (db.table? versionTableName).isSome ∨ (db.index? versionTableName).isNone

variable {db : Database}

/-! ## The greatest version -/

theorem toInt_ofNat {v : Nat} (h : v < UInt32.size) : (Int64.ofNat v).toInt = v := by
  rw [Int64.toInt_ofNat_of_lt]
  exact h.trans (by decide)

theorem versionValue_inj {v w : Nat} (hv : v < UInt32.size) (hw : w < UInt32.size)
    (h : versionValue v = versionValue w) : v = w := by
  have hint := congrArg Int64.toInt (Value.integer.inj h)
  rw [toInt_ofNat hv, toInt_ofNat hw] at hint
  exact Int.ofNat_inj.1 hint

theorem versionOf_eq {r : Record} {v : Nat} (h : v < UInt32.size)
    (hr : Record.get r 0 = versionValue v) : versionOf r = v := by
  rw [versionOf, hr, versionValue]
  simp [toInt_ofNat h]

theorem greater_versionValue {v w : Nat} (hv : v < UInt32.size) (hw : w < UInt32.size) :
    Database.greater (versionValue v) (versionValue w) = versionValue (max v w) := by
  have hlt : (versionValue v).compare (versionValue w) = .lt ↔ v < w := by
    simp only [versionValue, Value.compare, toInt_ofNat hv, toInt_ofNat hw]
    exact compare_lt_iff_lt.trans Int.ofNat_lt
  unfold Database.greater
  by_cases h : v < w
  · rw [if_pos (hlt.2 h), max_eq_right h.le]
  · rw [if_neg (mt hlt.1 h), max_eq_left (not_lt.1 h)]

theorem foldl_greater {rows : List Record}
    (h : ∀ r ∈ rows, ∃ v < UInt32.size, Record.get r 0 = versionValue v) {a : Nat}
    (ha : a < UInt32.size) :
    (rows.map (Record.get · 0)).foldl Database.greater (versionValue a) =
      versionValue ((rows.map versionOf).foldl max a) ∧
      (rows.map versionOf).foldl max a < UInt32.size := by
  induction rows generalizing a with
  | nil => exact ⟨rfl, ha⟩
  | cons r rows ih =>
    obtain ⟨⟨v, hv, hr⟩, h⟩ := List.forall_mem_cons.1 h
    rw [List.map_cons, List.foldl_cons, List.map_cons, List.foldl_cons, versionOf_eq hv hr, hr,
      greater_versionValue ha hv]
    exact ih h (max_lt ha hv)

/-- The greatest value is that of the greatest version; it is read as 0 if there is none. -/
theorem greatest_version {rows : List Record}
    (h : ∀ r ∈ rows, ∃ v < UInt32.size, Record.get r 0 = versionValue v) :
    SchemaVersion.ofInt (intAt [ColumnType.int.cell
      ((rows.map (Record.get · 0)).foldl Database.greater .null)] 0).toInt =
        ⟨(rows.map versionOf).foldl max 0⟩ := by
  cases rows with
  | nil => rfl
  | cons r rows =>
    obtain ⟨⟨v, hv, hr⟩, h⟩ := List.forall_mem_cons.1 h
    have hnull : Database.greater .null (versionValue v) = versionValue v := rfl
    obtain ⟨hfold, hlt⟩ := foldl_greater h hv
    rw [List.map_cons, List.foldl_cons, hr, hnull, hfold, List.map_cons, List.foldl_cons,
      versionOf_eq hv hr, Nat.zero_max]
    simp only [versionValue, ColumnType.cell, intAt, List.getElem?_cons_zero, toInt_ofNat hlt,
      SchemaVersion.ofInt]
    rw [if_pos ⟨Int.natCast_nonneg _, Int.ofNat_lt.2 hlt⟩, Int.toNat_natCast]

/-! ## Asking for it -/

theorem sameName_tableName_versions : sameName tableName versionTableName = false :=
  sameName_eq_false_of_length (by decide)

theorem sameName_versions_tableName : sameName versionTableName tableName = false :=
  sameName_eq_false_of_length (by decide)

theorem sameName_version_appliedAt : sameName "version" "applied_at" = false :=
  sameName_eq_false_of_length (by decide)

theorem position?_version : versionLayout.position? "version" = some 0 := by
  simp [versionLayout, Layout.position?, List.findIdx?_cons]

theorem position_version : versionLayout.position "version" = .ok 0 := by
  rw [Layout.position, position?_version]

theorem position_appliedAt : versionLayout.position "applied_at" = .ok 1 := by
  simp [versionLayout, Layout.position, Layout.position?, List.findIdx?_cons,
    sameName_version_appliedAt]

/-- Where there was no table of versions before, one without rows is added. -/
theorem table?_withVersions_of_none (h : db.table? versionTableName = none) :
    (withVersions db).table? versionTableName = some ⟨versionLayout, []⟩ := by
  rw [withVersions, h]
  refine List.find?_append.trans ?_
  rw [show db.tables.find? _ = none from h, Option.none_or]
  exact List.find?_cons_of_pos (sameName_refl _)

theorem table?_withVersions (h : Versioned db) :
    ∃ rows, (withVersions db).table? versionTableName = some ⟨versionLayout, rows⟩ ∧
      rows.map versionOf = recordedVersions db ∧
      ∀ r ∈ rows, ∃ v < UInt32.size, Record.get r 0 = versionValue v := by
  cases ht : db.table? versionTableName with
  | none => exact ⟨[], table?_withVersions_of_none ht, by simp [recordedVersions, ht], by simp⟩
  | some t =>
    obtain ⟨hl, hr⟩ := h t ht
    refine ⟨t.rows, ?_, by simp [recordedVersions, ht], hr⟩
    rw [withVersions, ht, if_pos Option.isSome_some, ht, ← hl]

/-- The table of versions is there after it has been asked for, if nothing else has its name. -/
theorem perform_createVersions (hf : NameFree db) :
    db.perform (.createTable versionLayout) = .ok (withVersions db, []) := by
  unfold withVersions
  by_cases ht : (db.table? versionTableName).isSome = true
  · rw [if_pos ht]
    exact Database.perform_createTable_of_table ht
  · rw [if_neg ht]
    have hi := hf.resolve_left ht
    simp only [Option.isNone_iff_eq_none, Option.not_isSome_iff_eq_none] at hi ht
    exact Database.perform_createTable ht hi

/-- The greatest version recorded is the one in effect. Asking for it leaves a table of versions
behind, and nothing else. -/
theorem storedVersion_on (h : Versioned db) (hf : NameFree db) :
    (storedVersion : Work Database SchemaVersion).on db =
      (.ok ⟨highest db⟩, withVersions db) := by
  obtain ⟨rows, ht, hrows, hv⟩ := table?_withVersions h
  have hcreate : (Statement.execute (.createTable versionLayout)).perform db =
      .ok (withVersions db, none) := Statement.perform_execute rfl (perform_createVersions hf)
  have hask : (Statement.step (.greatest "version" versionTableName) [] [.int]).perform
      (withVersions db) = .ok (withVersions db, some [[ColumnType.int.cell
        ((rows.map (Record.get · 0)).foldl Database.greater .null)]]) :=
    Statement.perform_step rfl (Database.perform_greatest ht position_version) (by simp)
  rw [storedVersion, Work.on_bind, transact_on, Database.transact_eq, askVersion,
    Database.performAll_cons hcreate, Database.performAll_cons hask]
  have hgreatest := greatest_version hv
  rw [hrows] at hgreatest
  exact congrArg (Except.ok ·, withVersions db) hgreatest

theorem storedVersion_on_of_index (ht : db.table? versionTableName = none)
    (hi : (db.index? versionTableName).isSome = true) :
    (storedVersion : Work Database SchemaVersion).on db =
      (.error (refused (.indexExists versionTableName)), db) := by
  have hcreate : (Statement.execute (.createTable versionLayout)).perform db =
      .error (.indexExists versionTableName) :=
    Statement.perform_error rfl (Database.perform_createTable_of_index ht hi)
  rw [storedVersion, Work.on_bind, transact_on, Database.transact_eq, askVersion,
    Database.performAll_cons_error hcreate]
  rfl

/-! ## Recording versions -/

def versionRecord (now : Instant) (v : Nat) : Record :=
  [versionValue v, .integer (Int64.ofInt (now.micros / 1000))]

theorem allows_versionRecord {rows : List Record} {v : Nat}
    (hv : ∀ r ∈ rows, Record.get r 0 ≠ versionValue v) (now : Instant) :
    Table.allows ⟨versionLayout, rows⟩ (versionRecord now v) = .ok () := by
  have hzip : versionLayout.columns.zip (versionRecord now v) =
      [(⟨"version", .integer, .key⟩, versionValue v),
        (⟨"applied_at", .integer, .required⟩, .integer (Int64.ofInt (now.micros / 1000)))] := rfl
  unfold Table.allows
  simp only [hzip, List.forM_eq_forM, List.forM_cons, List.forM_nil, versionValue,
    position?_version]
  split
  next h =>
    obtain ⟨r, hr, he⟩ := List.any_eq_true.1 h
    exact absurd (of_decide_eq_true he) (hv r hr)
  next => rfl

theorem records_versionRecord (rows : List Record) (now : Instant) (v : Nat) :
    Database.records ⟨versionLayout, rows⟩ ["version", "applied_at"] [versionRecord now v] =
      .ok [versionRecord now v] := by
  have hnames : ["version", "applied_at"].mapM versionLayout.position = .ok [0, 1] := by
    simp [List.mapM_cons, position_version, position_appliedAt]
    rfl
  have hplaces : versionLayout.columns.map (fun c =>
      ["version", "applied_at"].findIdx? (sameName · c.name)) = [0, 1].map some := by
    simp [versionLayout, List.findIdx?_cons, sameName_version_appliedAt]
  simp only [Database.records, hnames, versionRecord, List.isEmpty_cons]
  simp [bind, Except.bind, pure, Except.pure, record_eq_zipWith hplaces]
  rfl

/-- Recording a version is never refused; the row goes in if the table allows it. -/
theorem perform_recordVersion {rows : List Record}
    (h : db.table? versionTableName = some ⟨versionLayout, rows⟩) (v : Nat) (now : Instant) :
    (recordVersion now v).perform db =
      .ok (db.setTable (Table.insertAllowed ⟨versionLayout, rows⟩ [versionRecord now v]), none) :=
  Statement.perform_run rfl (Database.perform_insertOrIgnore h (records_versionRecord rows now v))

theorem insertAllowed_versionRecord {rows : List Record} {v : Nat}
    (hv : ∀ r ∈ rows, Record.get r 0 ≠ versionValue v) (now : Instant) :
    Table.insertAllowed ⟨versionLayout, rows⟩ [versionRecord now v] =
      ⟨versionLayout, rows ++ [versionRecord now v]⟩ := by
  simp only [Table.insertAllowed, allows_versionRecord hv]
  rfl

theorem perform_recordVersion_of_new {rows : List Record} {v : Nat}
    (h : db.table? versionTableName = some ⟨versionLayout, rows⟩)
    (hv : ∀ r ∈ rows, Record.get r 0 ≠ versionValue v) (now : Instant) :
    (recordVersion now v).perform db =
      .ok (db.setTable ⟨versionLayout, rows ++ [versionRecord now v]⟩, none) := by
  rw [perform_recordVersion h, insertAllowed_versionRecord hv]

/-- New versions are recorded in their order, after those that are recorded already. -/
theorem performAll_recordVersions {rows : List Record} {v : Nat} {vs : List Nat}
    (h : db.table? versionTableName = some ⟨versionLayout, rows⟩)
    (hd : (v :: vs).Nodup) (hlt : ∀ w ∈ v :: vs, w < UInt32.size)
    (hv : ∀ w ∈ v :: vs, ∀ r ∈ rows, Record.get r 0 ≠ versionValue w) (now : Instant)
    (result : List Row) :
    db.performAll result ((v :: vs).map (recordVersion now)) =
      .ok (db.setTable ⟨versionLayout, rows ++ (v :: vs).map (versionRecord now)⟩, result) := by
  induction vs generalizing db rows v with
  | nil => exact Database.performAll_cons (perform_recordVersion_of_new h (hv v (by simp)) now) _ _
  | cons w vs ih =>
    have hrecord := perform_recordVersion_of_new h (hv v (by simp)) now
    have hset := Database.table?_setTable_self h
      (u := ⟨versionLayout, rows ++ [versionRecord now v]⟩) rfl
    have hnew : ∀ x ∈ w :: vs, ∀ r ∈ rows ++ [versionRecord now v],
        Record.get r 0 ≠ versionValue x := by
      intro x hx r hr
      obtain hr | hr := List.mem_append.1 hr
      · exact hv x (List.mem_cons_of_mem v hx) r hr
      · rw [List.mem_singleton.1 hr]
        exact fun he => (List.nodup_cons.1 hd).1 (versionValue_inj (hlt v (by simp))
          (hlt x (List.mem_cons_of_mem v hx)) he ▸ hx)
    have hrest := ih hset hd.of_cons (fun x hx => hlt x (List.mem_cons_of_mem v hx)) hnew
    rw [List.map_cons, Database.performAll_cons hrecord]
    refine hrest.trans (congrArg (fun d => Except.ok (d, result)) ?_)
    rw [Database.setTable_setTable, List.append_assoc]
    rfl

end AdLedger.Store
