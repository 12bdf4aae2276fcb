import AdLedger.Proofs.Store.Coordination

/-!
# Databases of later versions

A database may record any integers of 64 bits as its versions. Where the greatest of them (`Newest`)
is beyond the current version, an attempt to bring tables up to date should leave the database
alone (`Attempt.LeavesAlone`). It does so for versions of 32 bits. A greater number is taken for no
version at all, so that every table is created once more and older versions are recorded beside it.
-/

namespace AdLedger.Store

open Sql
open Time (Instant)

/-- The greatest of the versions that a database records, each of them an integer. -/
def Newest (db : Database) (n : Int64) : Prop :=
  ∃ rows, db.table? versionTableName = some ⟨versionLayout, rows⟩ ∧
    (∀ r ∈ rows, ∃ m : Int64, m ≤ n ∧ Record.get r 0 = .integer m) ∧
    ∃ r ∈ rows, Record.get r 0 = .integer n

variable {db : Database} {n : Int64}

/-! ## The greatest integer -/

theorem compare_integer_lt_iff {m n : Int64} :
    (Value.integer m).compare (.integer n) = .lt ↔ m < n := by
  rw [Int64.lt_iff_toInt_lt]
  exact compare_lt_iff_lt

/-- The greatest value is found wherever it stands. What has been found before it is null or an
integer that is not greater. -/
theorem foldl_greater_eq {rows : List Record} {found : Value}
    (h : ∀ r ∈ rows, ∃ m : Int64, m ≤ n ∧ Record.get r 0 = .integer m)
    (hfound : found = .null ∨ ∃ m : Int64, m ≤ n ∧ found = .integer m)
    (hn : found = .integer n ∨ ∃ r ∈ rows, Record.get r 0 = .integer n) :
    (rows.map (Record.get · 0)).foldl Database.greater found = .integer n := by
  induction rows generalizing found with
  | nil => simpa using hn
  | cons r rows ih =>
    obtain ⟨⟨m, hm, hr⟩, h⟩ := List.forall_mem_cons.1 h
    rw [List.map_cons, List.foldl_cons, hr]
    have hgreater : Database.greater found (.integer m) = .integer m ∧ found ≠ .integer n ∨
        Database.greater found (.integer m) = found ∧ (m = n → found = .integer n) := by
      obtain rfl | ⟨k, hk, rfl⟩ := hfound
      · exact .inl ⟨rfl, nofun⟩
      · unfold Database.greater
        simp only [compare_integer_lt_iff]
        split
        next hlt =>
          refine .inl ⟨rfl, fun he => ?_⟩
          cases he
          exact absurd hm (Int64.not_le.2 hlt)
        next hle =>
          refine .inr ⟨rfl, fun he => ?_⟩
          rw [Int64.le_antisymm hk (he ▸ Int64.not_lt.1 hle)]
    obtain ⟨hg, hne⟩ | ⟨hg, he⟩ := hgreater <;> rw [hg]
    · refine ih h (.inr ⟨m, hm, rfl⟩) ?_
      obtain hn | ⟨s, hs, hn⟩ := hn
      · exact absurd hn hne
      · obtain rfl | hs := List.mem_cons.1 hs
        · exact .inl (hr.symm.trans hn)
        · exact .inr ⟨s, hs, hn⟩
    · refine ih h hfound ?_
      obtain hn | ⟨s, hs, hn⟩ := hn
      · exact .inl hn
      · obtain rfl | hs := List.mem_cons.1 hs
        · exact .inl (he (Value.integer.inj (hr.symm.trans hn)))
        · exact .inr ⟨s, hs, hn⟩

/-- The version in effect is what the greatest number stands for. -/
theorem Newest.storedVersion_on (h : Newest db n) :
    (storedVersion : Work Database SchemaVersion).on db = (.ok (.ofInt n.toInt), db) := by
  obtain ⟨rows, ht, hrows, hn⟩ := h
  have hsome : (db.table? versionLayout.name).isSome = true := Option.isSome_iff_exists.2 ⟨_, ht⟩
  have hcreate : (Statement.execute (.createTable versionLayout)).perform db = .ok (db, none) :=
    Statement.perform_execute rfl (Database.perform_createTable_of_table hsome)
  have hask : (Statement.step (.greatest "version" versionTableName) [] [.int]).perform db =
      .ok (db, some [[ColumnType.int.cell
        ((rows.map (Record.get · 0)).foldl Database.greater .null)]]) :=
    Statement.perform_step rfl (Database.perform_greatest ht position_version) (by simp)
  rw [storedVersion, Work.on_bind, transact_on, Database.transact_eq, askVersion,
    Database.performAll_cons hcreate, Database.performAll_cons hask,
    foldl_greater_eq hrows (.inl rfl) (.inr hn)]
  rfl

/-- Recording versions is never refused. -/
theorem performAll_recordVersion {rows : List Record}
    (h : db.table? versionTableName = some ⟨versionLayout, rows⟩) (vs : List Nat) (now : Instant)
    (result : List Row) :
    ∃ after, db.performAll result (vs.map (recordVersion now)) = .ok (after, result) := by
  induction vs generalizing db rows with
  | nil => exact ⟨db, rfl⟩
  | cons v vs ih =>
    have hrecord := perform_recordVersion h v now
    have hlayout := Database.layout_insertAllowed ⟨versionLayout, rows⟩ [versionRecord now v]
    generalize Table.insertAllowed _ [versionRecord now v] = u at hrecord hlayout
    obtain ⟨l, more⟩ := u
    obtain rfl : l = versionLayout := hlayout
    have hset := Database.table?_setTable_self h (u := ⟨versionLayout, more⟩) rfl
    obtain ⟨after, ha⟩ := ih hset
    exact ⟨after, (Database.performAll_cons hrecord _ _).trans ha⟩

/-! ## What an attempt does -/

namespace Attempt

variable {a : Attempt}

/-- The hooks that an attempt runs. -/
def hooksRun (a : Attempt) (db : Database) : List (TableHooks × Step) :=
  ((bringUp a.tables a.now).on ⟨db, []⟩).2.called

/-- An attempt runs no hook and changes nothing, and gives no version below `n`. -/
structure LeavesAlone (a : Attempt) (db : Database) (n : Int64) : Prop where
  noHook : a.hooksRun db = []
  unchanged : (a.outcome db).2 = db
  notOlder : ∀ version, (a.outcome db).1 = .ok version → n.toInt ≤ version.number

theorem hooksRun_of_newest (h : Newest db n) :
    a.hooksRun db = calls a.tables (.ofInt n.toInt) := by
  cases hc : (SchemaVersion.ofInt n.toInt).isCurrent with
  | true => rw [hooksRun, bringUp_of_isCurrent h.storedVersion_on hc, calls_of_isCurrent hc]
  | false => rw [hooksRun, bringUp_of_not_isCurrent h.storedVersion_on hc]

/-- A later version of 32 bits is the one in effect. -/
theorem outcome_of_later (h : Newest db n) (hn : SchemaVersion.current.number < n.toInt)
    (hsize : n.toInt < UInt32.size) :
    SchemaVersion.ofInt n.toInt = ⟨n.toInt.toNat⟩ ∧ a.outcome db = (.ok ⟨n.toInt.toNat⟩, db) := by
  have hof : SchemaVersion.ofInt n.toInt = ⟨n.toInt.toNat⟩ := if_pos ⟨by omega, hsize⟩
  have hc : SchemaVersion.isCurrent ⟨n.toInt.toNat⟩ = true := by
    simp only [SchemaVersion.isCurrent, decide_eq_true_eq]
    omega
  refine ⟨hof, ?_⟩
  rw [outcome, ensureCurrent_eq, Work.on_bind, h.storedVersion_on, hof]
  simp only [hc, if_true]
  rfl

/-- A number beyond 32 bits is taken for no version. -/
theorem outcome_of_beyond (h : Newest db n) (hsize : UInt32.size ≤ n.toInt) :
    SchemaVersion.ofInt n.toInt = .none ∧ a.outcome db =
      (transact (upgrade a.tables .none a.now) >>= fun _ => pure .current :
        Work Database SchemaVersion).on db := by
  have hof : SchemaVersion.ofInt n.toInt = .none := if_neg fun hlt => by omega
  refine ⟨hof, ?_⟩
  rw [outcome, ensureCurrent_eq, Work.on_bind, h.storedVersion_on, hof]
  rfl

theorem not_leavesAlone_of_beyond (h : Newest db n) (hsize : UInt32.size ≤ n.toInt) :
    ¬ a.LeavesAlone db n := by
  intro hl
  obtain ⟨hof, ho⟩ := outcome_of_beyond (a := a) h hsize
  have htables : a.tables = [] := by
    have hcalls := hl.noHook
    rw [hooksRun_of_newest h, hof, SchemaVersion.none,
      calls_of_lt (show 0 < SchemaVersion.current.number by decide)] at hcalls
    simpa [hooksFrom] using hcalls
  -- Without hooks the transaction cannot fail, and the current version is given.
  obtain ⟨rows, ht, -⟩ := h
  obtain ⟨after, hp⟩ := performAll_recordVersion ht (missingVersions .none) a.now []
  have hversion : (a.outcome db).1 = .ok .current := by
    have hupgrade : upgrade a.tables .none a.now =
        (missingVersions .none).map (recordVersion a.now) := by
      simp [upgrade, calls, htables]
    rw [ho, hupgrade, Work.on_bind, transact_on, Database.transact_eq, hp]
    rfl
  have hle := hl.notOlder _ hversion
  have hcurrent : (SchemaVersion.current.number : Int) < UInt32.size := by decide
  omega

/-- A database of a later version is left alone by every attempt if and only if its version is a
number of 32 bits. A greater one is treated as none. -/
theorem leavesAlone_iff (h : Newest db n) (hn : SchemaVersion.current.number < n.toInt) :
    (a.LeavesAlone db n ↔ n.toInt < UInt32.size) ∧
    (n.toInt < UInt32.size → a.outcome db = (.ok ⟨n.toInt.toNat⟩, db)) ∧
    (UInt32.size ≤ n.toInt → a.hooksRun db = a.tables.map (·, .create) ∧ a.outcome db =
      (transact (upgrade a.tables .none a.now) >>= fun _ => pure .current :
        Work Database SchemaVersion).on db) := by
  refine ⟨⟨fun hl => ?_, fun hsize => ?_⟩, fun hsize => (outcome_of_later h hn hsize).2,
    fun hsize => ⟨?_, (outcome_of_beyond h hsize).2⟩⟩
  · by_contra hsize
    exact not_leavesAlone_of_beyond h (Int.not_lt.1 hsize) hl
  · obtain ⟨hof, ho⟩ := outcome_of_later (a := a) h hn hsize
    have hc : SchemaVersion.isCurrent ⟨n.toInt.toNat⟩ = true := by
      simp only [SchemaVersion.isCurrent, decide_eq_true_eq]
      omega
    refine ⟨?_, by rw [ho], fun version hv => ?_⟩
    · rw [hooksRun_of_newest h, hof, calls_of_isCurrent hc]
    · rw [ho] at hv
      cases hv
      exact Int.self_le_toNat _
  · rw [hooksRun_of_newest h, (outcome_of_beyond (a := a) h hsize).1, SchemaVersion.none,
      calls_of_lt (by decide), hooksFrom, if_pos rfl]

/-- A database without events that records one version. -/
def recording (n : Int64) : Database := ⟨[⟨versionLayout, [[.integer n, .integer 0]]⟩], []⟩

theorem newest_recording (n : Int64) : Newest (recording n) n := by
  refine ⟨[[.integer n, .integer 0]], List.find?_cons_of_pos (sameName_refl _), ?_, _,
    List.mem_singleton_self _, rfl⟩
  intro r hr
  cases List.mem_singleton.1 hr
  exact ⟨n, Int64.le_refl n, rfl⟩

theorem recording_three_leavesAlone :
    Newest (recording 3) 3 ∧ (SchemaVersion.current.number : Int) < (3 : Int64).toInt ∧
      LeavesAlone ⟨[ledgerHooks], .epoch⟩ (recording 3) 3 :=
  ⟨newest_recording 3, by decide,
    (leavesAlone_iff (newest_recording 3) (by decide)).1.2 (by decide)⟩

/-- The first number beyond 32 bits. -/
theorem recording_beyond_not_leavesAlone :
    Newest (recording 4294967296) 4294967296 ∧
      (SchemaVersion.current.number : Int) < (4294967296 : Int64).toInt ∧
      ¬ LeavesAlone ⟨[ledgerHooks], .epoch⟩ (recording 4294967296) 4294967296 :=
  ⟨newest_recording _, by decide, not_leavesAlone_of_beyond (newest_recording _) (by decide)⟩

end Attempt

end AdLedger.Store
