import AdLedger.Proofs.Store.Versions
import Mathlib.Data.List.Nodup
import Mathlib.Data.List.Range

/-!
# Bringing tables up to date

What an attempt to bring tables up to date calls and sends (`bringUp_of_not_isCurrent`), with any
engine, and what it does to a database of its own: what the hooks do takes effect together with the
records of the versions reached (`Attempt.outcome_committed`), so that the current version is then
the greatest one (`Attempt.highest_recorded`).
-/

namespace AdLedger.Store

open Sql
open Time (Instant)

/-! ## Hooks and transactions -/

section Engines

/-- The statements that bring tables up from a stored version. -/
def upgrade (tables : List TableHooks) (stored : SchemaVersion) (now : Instant) : List Statement :=
  (calls tables stored).flatMap (fun (table, step) => table.statements step) ++
    (missingVersions stored).map (recordVersion now)

/-- Every hook is called in its turn, and none of them fails. -/
theorem mapM_call_on {σ : Type} (hooks : List (TableHooks × Step)) (c : Coordinator σ) :
    (hooks.mapM call).on c = (.ok (hooks.map fun (table, step) => table.statements step),
      ⟨c.engine, c.called ++ hooks⟩) := by
  induction hooks generalizing c with
  | nil => exact congrArg (Except.ok [], ·) (by rw [List.append_nil])
  | cons hook hooks ih =>
    have hcall : (call hook).on c =
        (.ok (hook.1.statements hook.2), ⟨c.engine, c.called ++ [hook]⟩) := rfl
    rw [List.mapM_cons, Work.on_bind, hcall]
    dsimp only
    rw [Work.on_bind, ih, List.append_assoc]
    rfl

variable {σ : Type} [Engine σ]

theorem storedVersion_on_coordinator (s : σ) (called : List (TableHooks × Step)) :
    (storedVersion : Work (Coordinator σ) SchemaVersion).on ⟨s, called⟩ =
      (((storedVersion : Work σ SchemaVersion).on s).1,
        ⟨((storedVersion : Work σ SchemaVersion).on s).2, called⟩) := by
  have ht : (transact askVersion : Work (Coordinator σ) (List Row)).on ⟨s, called⟩ =
      (((transact askVersion : Work σ (List Row)).on s).1,
        ⟨((transact askVersion : Work σ (List Row)).on s).2, called⟩) := rfl
  simp only [storedVersion, Work.on_bind, ht]
  rcases (transact askVersion : Work σ (List Row)).on s with ⟨_ | _, _⟩ <;> rfl

variable {tables : List TableHooks} {now : Instant} {s told : σ}

theorem bringUp_of_error {failure : Failure}
    (h : (storedVersion : Work σ SchemaVersion).on s = (.error failure, told)) :
    (bringUp tables now).on ⟨s, []⟩ = (.error failure, ⟨told, []⟩) := by
  rw [bringUp, Work.on_bind, storedVersion_on_coordinator, h]

theorem bringUp_of_isCurrent {stored : SchemaVersion}
    (h : (storedVersion : Work σ SchemaVersion).on s = (.ok stored, told))
    (hc : stored.isCurrent = true) :
    (bringUp tables now).on ⟨s, []⟩ = (.ok stored, ⟨told, []⟩) := by
  rw [bringUp, Work.on_bind, storedVersion_on_coordinator, h]
  simp only [hc, if_true]
  rfl

/-- The hooks of the missing versions are called, and what they give is carried out together with
the records of these versions. -/
theorem bringUp_of_not_isCurrent {stored : SchemaVersion}
    (h : (storedVersion : Work σ SchemaVersion).on s = (.ok stored, told))
    (hc : stored.isCurrent = false) :
    (bringUp tables now).on ⟨s, []⟩ =
      (((transact (upgrade tables stored now) : Work σ (List Row)).on told).1.map fun _ => .current,
        ⟨((transact (upgrade tables stored now) : Work σ (List Row)).on told).2,
          calls tables stored⟩) := by
  have hupgrade : ((calls tables stored).map fun (table, step) => table.statements step).flatten ++
      (missingVersions stored).map (recordVersion now) = upgrade tables stored now := by
    rw [← List.flatMap_def, upgrade]
  have ht : (transact (upgrade tables stored now) : Work (Coordinator σ) (List Row)).on
      ⟨told, calls tables stored⟩ =
      (((transact (upgrade tables stored now) : Work σ (List Row)).on told).1,
        ⟨((transact (upgrade tables stored now) : Work σ (List Row)).on told).2,
          calls tables stored⟩) := rfl
  rw [bringUp, Work.on_bind, storedVersion_on_coordinator, h]
  simp only [hc, Bool.false_eq_true, if_false]
  rw [Work.on_bind, mapM_call_on]
  simp only [hupgrade, List.nil_append, Work.on_bind, ht]
  rcases (transact (upgrade tables stored now) : Work σ (List Row)).on told with ⟨_ | _, _⟩ <;> rfl

theorem ensureCurrent_on (tables : List TableHooks) (now : Instant) (s : σ) :
    (ensureCurrent tables now).on s =
      (((bringUp tables now).on ⟨s, []⟩).1, ((bringUp tables now).on ⟨s, []⟩).2.engine) := rfl

/-- Brings tables up, without a look at the hooks that are called. -/
theorem ensureCurrent_eq (tables : List TableHooks) (now : Instant) :
    (ensureCurrent tables now : Work σ SchemaVersion) = do
      let stored ← storedVersion
      if stored.isCurrent then return stored
      let _ ← transact (upgrade tables stored now)
      return .current := by
  funext s
  refine (ensureCurrent_on tables now s).trans ?_
  change _ = Work.on _ s
  rw [Work.on_bind]
  rcases h : (storedVersion : Work σ SchemaVersion).on s with ⟨_ | stored, told⟩
  · rw [bringUp_of_error h]
  · cases hc : stored.isCurrent with
    | true =>
      rw [bringUp_of_isCurrent h hc]
      simp only [hc, if_true]
      rfl
    | false =>
      rw [bringUp_of_not_isCurrent h hc]
      simp only [hc, Bool.false_eq_true, if_false, Work.on_bind]
      rcases (transact (upgrade tables stored now) : Work σ (List Row)).on told with ⟨_ | _, _⟩ <;> rfl

end Engines

/-! ## Attempts -/

/-- An attempt to bring tables up to date. -/
structure Attempt where
  tables : List TableHooks
  now : Instant

namespace Attempt

def outcome (a : Attempt) (db : Database) : Except Failure SchemaVersion × Database :=
  (ensureCurrent a.tables a.now : Work Database SchemaVersion).on db

/-- The hooks leave the table of versions alone. -/
def Spares (a : Attempt) : Prop :=
  ∀ table ∈ a.tables, ∀ step, ∀ s ∈ table.statements step, s.Spares versionTableName

/-- The versions after one, up to the current version. -/
def versionsFrom (version : Nat) : List Nat :=
  List.range' (version + 1) (SchemaVersion.current.number - version)

/-- The hooks to run from a version: the creation of every table if there is none, else for every
version that is missing the change of every table. -/
def hooksFrom (a : Attempt) (version : Nat) : List (TableHooks × Step) :=
  if version = 0 then a.tables.map (·, .create)
  else (versionsFrom version).flatMap fun v => a.tables.map (·, .migrate v)

/-- What the hooks from a version do, one after the other. -/
def work (a : Attempt) (version : Nat) : List Statement :=
  (a.hooksFrom version).flatMap fun (table, step) => table.statements step

/-- The database with records of the versions after one. -/
def recorded (a : Attempt) (version : Nat) (db : Database) : Database :=
  match db.table? versionTableName with
  | some t =>
    db.setTable { t with rows := t.rows ++ (versionsFrom version).map (versionRecord a.now) }
  | none => db

variable {a : Attempt} {db : Database}

/-! ## The greatest version -/

theorem le_foldl_max {vs : List Nat} {b : Nat} :
    b ≤ vs.foldl max b ∧ ∀ v ∈ vs, v ≤ vs.foldl max b := by
  induction vs generalizing b with
  | nil => simp
  | cons w vs ih =>
    obtain ⟨hb, hvs⟩ := ih (b := max b w)
    refine ⟨(le_max_left b w).trans hb, List.forall_mem_cons.2 ⟨(le_max_right b w).trans hb, hvs⟩⟩

theorem foldl_max_range' (v n : Nat) : (List.range' (v + 1) n).foldl max v = v + n := by
  induction n generalizing v with
  | zero => rfl
  | succ n ih =>
    rw [List.range'_succ, List.foldl_cons, max_eq_right (Nat.le_succ v), ih]
    omega

theorem isSome_of_highest_pos (h : 0 < highest db) :
    (db.table? versionTableName).isSome = true := by
  cases ht : db.table? versionTableName with
  | none => simp [highest, recordedVersions, ht] at h
  | some t => rfl

theorem withVersions_eq (h : (db.table? versionTableName).isSome = true) :
    withVersions db = db := by
  rw [withVersions, if_pos h]

theorem recordedVersions_withVersions (db : Database) :
    recordedVersions (withVersions db) = recordedVersions db := by
  cases ht : db.table? versionTableName with
  | none => simp [recordedVersions, table?_withVersions_of_none ht, ht]
  | some t => rw [withVersions_eq (by simp [ht])]

theorem versioned_withVersions (h : Versioned db) : Versioned (withVersions db) := by
  obtain ⟨rows, ht, -, hrows⟩ := table?_withVersions h
  intro t ht'
  cases ht.symm.trans ht'
  exact ⟨rfl, hrows⟩

/-! ## Hooks -/

theorem missingVersions_eq (version : Nat) : missingVersions ⟨version⟩ = versionsFrom version := by
  rw [missingVersions, versionsFrom, List.range'_eq_map_range]

theorem calls_of_lt {version : Nat} (h : version < SchemaVersion.current.number) :
    calls a.tables ⟨version⟩ = a.hooksFrom version := by
  have hc : SchemaVersion.isCurrent ⟨version⟩ = false := by simpa [SchemaVersion.isCurrent] using h
  by_cases hz : version = 0
  · subst hz
    simp [calls, plan, hooksFrom, hc, SchemaVersion.none]
  · simp [calls, plan, hooksFrom, hc, hz, SchemaVersion.none, missingVersions_eq, List.flatMap_map]

theorem calls_of_isCurrent {stored : SchemaVersion} (h : stored.isCurrent = true) :
    calls a.tables stored = [] := by
  simp [calls, plan, h]

theorem upgrade_eq {version : Nat} (h : version < SchemaVersion.current.number) :
    upgrade a.tables ⟨version⟩ a.now =
      a.work version ++ (versionsFrom version).map (recordVersion a.now) := by
  rw [upgrade, calls_of_lt h, missingVersions_eq, work]

/-- The ledger's own hooks only create what is missing. -/
theorem mem_statements_ledger {step : Step} {s : Statement} (h : s ∈ ledgerHooks.statements step) :
    s = createTable ∨ ∃ column, s = createColumnIndex column := by
  have hcolumns : ∀ columns : List String, s ∈ createTable :: columns.map createColumnIndex →
      s = createTable ∨ ∃ column, s = createColumnIndex column := by
    intro columns hs
    obtain rfl | hs := List.mem_cons.1 hs
    · exact .inl rfl
    · obtain ⟨column, -, rfl⟩ := List.mem_map.1 hs
      exact .inr ⟨column, rfl⟩
  unfold ledgerHooks at h
  dsimp only at h
  split at h
  · exact hcolumns _ h
  · exact hcolumns _ h
  · exact .inr ⟨_, List.mem_singleton.1 h⟩
  · cases h

theorem spares_ledger (now : Instant) : Spares ⟨[ledgerHooks], now⟩ := by
  intro table ht step s hs n hn
  cases List.mem_singleton.1 ht
  obtain rfl | ⟨_, rfl⟩ := mem_statements_ledger hs <;> cases hn

/-- What is done comes from the hooks of the tables. -/
theorem exists_of_mem_work {version : Nat} {s : Statement} (hs : s ∈ a.work version) :
    ∃ table ∈ a.tables, ∃ step, s ∈ table.statements step := by
  obtain ⟨⟨table, step⟩, hc, hs⟩ := List.mem_flatMap.1 hs
  refine ⟨table, ?_, step, hs⟩
  unfold hooksFrom at hc
  split at hc
  · obtain ⟨_, ht, he⟩ := List.mem_map.1 hc
    exact (Prod.mk.inj he).1 ▸ ht
  · obtain ⟨_, -, hc⟩ := List.mem_flatMap.1 hc
    obtain ⟨_, ht, he⟩ := List.mem_map.1 hc
    exact (Prod.mk.inj he).1 ▸ ht

theorem spares_of_mem_work (h : a.Spares) {version : Nat} {s : Statement}
    (hs : s ∈ a.work version) : s.Spares versionTableName := by
  obtain ⟨table, ht, step, hs⟩ := exists_of_mem_work hs
  exact h table ht step s hs

/-! ## One attempt -/

/-- Where a version is missing, an attempt carries out what is to be done from there as a whole. -/
theorem outcome_of_lt (h : Versioned db) (hf : NameFree db)
    (hlt : highest db < SchemaVersion.current.number) :
    a.outcome db =
      match (withVersions db).performAll []
        (a.work (highest db) ++ (versionsFrom (highest db)).map (recordVersion a.now)) with
      | .ok (after, _) => (.ok .current, after)
      | .error refusal => (.error (refused refusal), withVersions db) := by
  have hc : SchemaVersion.isCurrent ⟨highest db⟩ = false := by
    simpa [SchemaVersion.isCurrent] using hlt
  rw [outcome, ensureCurrent_eq, Work.on_bind, storedVersion_on h hf]
  simp only [hc, Bool.false_eq_true, if_false, Work.on_bind, transact_on, Database.transact_eq,
    upgrade_eq hlt]
  generalize (withVersions db).performAll [] _ = performed
  cases performed <;> rfl

theorem outcome_of_le (h : Versioned db) (hle : SchemaVersion.current.number ≤ highest db) :
    a.outcome db = (.ok ⟨highest db⟩, db) := by
  have hsome := isSome_of_highest_pos (Nat.lt_of_lt_of_le (by decide) hle)
  have hc : SchemaVersion.isCurrent ⟨highest db⟩ = true := by
    simpa [SchemaVersion.isCurrent] using hle
  rw [outcome, ensureCurrent_eq, Work.on_bind, storedVersion_on h (.inl hsome), withVersions_eq hsome]
  simp only [hc, if_true]
  rfl

/-- The versions to record are new ones, and there are some. -/
theorem versionsFrom_cons {version : Nat} (h : version < SchemaVersion.current.number) :
    ∃ vs, versionsFrom version = (version + 1) :: vs := by
  obtain ⟨n, hn⟩ := Nat.exists_eq_succ_of_ne_zero (Nat.sub_ne_zero_of_lt h)
  exact ⟨_, by rw [versionsFrom, hn, List.range'_succ]⟩

theorem lt_of_mem_versionsFrom {version v : Nat} (h : v ∈ versionsFrom version) :
    version < v ∧ v < UInt32.size := by
  obtain ⟨hv, hlt⟩ := List.mem_range'_1.1 h
  have hsize : SchemaVersion.current.number + 1 < UInt32.size := by decide
  omega

theorem table?_recorded {after : Database} {rows : List Record} {version : Nat}
    (ht : after.table? versionTableName = some ⟨versionLayout, rows⟩) :
    (a.recorded version after).table? versionTableName =
      some ⟨versionLayout, rows ++ (versionsFrom version).map (versionRecord a.now)⟩ := by
  unfold recorded
  rw [ht]
  exact Database.table?_setTable_self ht rfl

/-- Where the hooks do not fail, recording the missing versions does not fail either. -/
theorem performAll_committed {rows : List Record} {version : Nat} {after : Database}
    (hlt : version < SchemaVersion.current.number)
    (ht : after.table? versionTableName = some ⟨versionLayout, rows⟩)
    (hold : ∀ r ∈ rows, ∃ v < UInt32.size, Record.get r 0 = versionValue v ∧ v ≤ version)
    (result : List Row) :
    after.performAll result ((versionsFrom version).map (recordVersion a.now)) =
      .ok (a.recorded version after, result) := by
  obtain ⟨vs, hvs⟩ := versionsFrom_cons hlt
  have hnodup : (versionsFrom version).Nodup := List.nodup_range' _
  have hnew : ∀ w ∈ versionsFrom version, ∀ r ∈ rows, Record.get r 0 ≠ versionValue w := by
    intro w hw r hr he
    obtain ⟨hlow, hsize⟩ := lt_of_mem_versionsFrom hw
    obtain ⟨v, hv, hrv, hle⟩ := hold r hr
    have hvw := versionValue_inj hv hsize (hrv.symm.trans he)
    omega
  have hsize : ∀ w ∈ versionsFrom version, w < UInt32.size :=
    fun w hw => (lt_of_mem_versionsFrom hw).2
  unfold recorded
  rw [ht]
  rw [hvs] at hnodup hnew hsize ⊢
  exact performAll_recordVersions ht hnodup hsize hnew a.now result

/-- No version that is recorded is beyond the greatest. -/
theorem exists_table?_withVersions (h : Versioned db) :
    ∃ rows, (withVersions db).table? versionTableName = some ⟨versionLayout, rows⟩ ∧
      rows.map versionOf = recordedVersions db ∧
      ∀ r ∈ rows, ∃ v < UInt32.size, Record.get r 0 = versionValue v ∧ v ≤ highest db := by
  obtain ⟨rows, ht, hrows, hv⟩ := table?_withVersions h
  refine ⟨rows, ht, hrows, ?_⟩
  intro r hr
  obtain ⟨v, hlt, hrv⟩ := hv r hr
  refine ⟨v, hlt, hrv, ?_⟩
  have hmem : versionOf r ∈ recordedVersions db := hrows ▸ List.mem_map_of_mem hr
  rw [versionOf_eq hlt hrv] at hmem
  exact le_foldl_max.2 v hmem

/-- After the hooks have run, the table of versions is as they found it. -/
theorem table?_of_work (h : Versioned db) (ha : a.Spares) {version : Nat} {after : Database}
    {result : List Row}
    (hp : (withVersions db).performAll [] (a.work version) = .ok (after, result)) :
    ∃ rows, after.table? versionTableName = some ⟨versionLayout, rows⟩ ∧
      rows.map versionOf = recordedVersions db ∧
      ∀ r ∈ rows, ∃ v < UInt32.size, Record.get r 0 = versionValue v ∧ v ≤ highest db := by
  obtain ⟨rows, ht, hrows⟩ := exists_table?_withVersions h
  exact ⟨rows, Database.table?_performAll ht (fun s hs => spares_of_mem_work ha hs) hp, hrows⟩

theorem outcome_committed (h : Versioned db) (hf : NameFree db) (ha : a.Spares)
    (hlt : highest db < SchemaVersion.current.number) {after : Database} {result : List Row}
    (hp : (withVersions db).performAll [] (a.work (highest db)) = .ok (after, result)) :
    a.outcome db = (.ok .current, a.recorded (highest db) after) := by
  obtain ⟨rows, ht, -, hold⟩ := table?_of_work h ha hp
  rw [outcome_of_lt h hf hlt, Database.performAll_append_of_ok hp, performAll_committed hlt ht hold]

theorem versionOf_versionRecords (now : Instant) (version : Nat) :
    ((versionsFrom version).map (versionRecord now)).map versionOf = versionsFrom version := by
  rw [List.map_map]
  refine (List.map_congr_left fun v hv => ?_).trans (List.map_id _)
  exact versionOf_eq (lt_of_mem_versionsFrom hv).2 rfl

theorem foldl_max_versionsFrom {version : Nat} (h : version ≤ SchemaVersion.current.number) :
    (versionsFrom version).foldl max version = SchemaVersion.current.number := by
  rw [versionsFrom, foldl_max_range', Nat.add_sub_cancel' h]

/-- Once they are recorded, the current version is the greatest one. -/
theorem highest_recorded {version : Nat} {after : Database} {rows : List Record}
    (hlt : version < SchemaVersion.current.number)
    (ht : after.table? versionTableName = some ⟨versionLayout, rows⟩)
    (hrows : (rows.map versionOf).foldl max 0 = version) :
    highest (a.recorded version after) = SchemaVersion.current.number := by
  rw [highest, recordedVersions, table?_recorded ht]
  simp only [List.map_append, List.foldl_append, hrows, versionOf_versionRecords]
  exact foldl_max_versionsFrom hlt.le

theorem versioned_recorded {version : Nat} {after : Database} {rows : List Record}
    (ht : after.table? versionTableName = some ⟨versionLayout, rows⟩)
    (hrows : ∀ r ∈ rows, ∃ v < UInt32.size, Record.get r 0 = versionValue v) :
    Versioned (a.recorded version after) := by
  intro t ht'
  cases (table?_recorded ht).symm.trans ht'
  refine ⟨rfl, fun r hr => ?_⟩
  obtain hr | hr := List.mem_append.1 hr
  · exact hrows r hr
  · obtain ⟨v, hv, rfl⟩ := List.mem_map.1 hr
    exact ⟨v, (lt_of_mem_versionsFrom hv).2, rfl⟩

theorem versioned_empty : Versioned Database.empty := nofun

end Attempt

end AdLedger.Store
