import AdLedger.Proofs.Store.Reopening

/-!
# Clients that share a database

Any number of clients share one database, and carry out their transactions in any order. Each opens
the database in two of them, one that asks for the version and one that brings the tables up to date
from what it was told, and goes on to save and to purge. In between the other clients may have
created, changed and filled the tables. A run is any list of moves (`Shared.run`); one move keeps
the sharing in one of three stages (`Stage.step`), from which all that is said of a run can be read
off.
-/

namespace AdLedger.Store

open Sql
open Time (Instant)

/-- How far a client has come in opening a database. -/
inductive Phase where
  | start
  /-- The client has been told a version that is behind the current one. -/
  | behind (stored : SchemaVersion)
  | opened (version : SchemaVersion)
  | failed (failure : Failure)

namespace Phase

/-- The phase after the database has been asked for its version. -/
def asked : Except Failure SchemaVersion → Phase
  | .ok version => if version.isCurrent then opened version else behind version
  | .error failure => failed failure

/-- The phase after the tables have been brought up to date. -/
def upgraded : Except Failure (List Row) → Phase
  | .ok _ => opened .current
  | .error failure => failed failure

/-- The next transaction in opening a database: the phase and the database after it. -/
def proceed (now : Instant) (db : Database) : Phase → Phase × Database
  | start =>
    let (result, after) := (storedVersion : Work Database SchemaVersion).on db
    (asked result, after)
  | behind stored =>
    let (result, after) :=
      (transact (upgrade [ledgerHooks] stored now) : Work Database (List Row)).on db
    (upgraded result, after)
  | phase => (phase, db)

end Phase

/-- What a client does with a database that it has opened. -/
inductive Change where
  | save (settings : Settings) (items : List Item)
  | purge (settings : Settings) (now : Instant)

namespace Change

def work : Change → Work Database Unit
  | save settings items => Store.save settings items
  | purge settings now => Store.purge settings now

/-- What a change makes of the rows of events. -/
def apply (rows : List Record) : Change → List Record
  | save _ items => rows ++ (entriesOf items).map Entry.record
  | purge settings now =>
    match settings.cutoff now with
    | .ok cutoff => rows.filter fun r => !(r.get 0).le (.integer cutoff.toPlatform)
    | .error _ => rows

end Change

/-- The next transaction of a client. -/
inductive Move where
  | proceed (client : Nat) (now : Instant)
  | change (client : Nat) (change : Change)

/-- A database, how far each of its clients has come, and the changes that have been committed, the
first one first. -/
structure Shared where
  db : Database
  phase : Nat → Phase
  committed : List Change

namespace Shared

/-- Nobody has opened the database yet. -/
def unopened (db : Database) : Shared := ⟨db, fun _ => .start, []⟩

/-- One transaction. Only a client that has opened the database changes its events. -/
def step (s : Shared) : Move → Shared
  | .proceed client now =>
    let (phase, after) := (s.phase client).proceed now s.db
    { s with db := after, phase := Function.update s.phase client phase }
  | .change client change =>
    match s.phase client with
    | .opened _ =>
      match change.work.on s.db with
      | (.ok (), after) => { s with db := after, committed := s.committed ++ [change] }
      | (.error _, after) => { s with db := after }
    | _ => s

def run (s : Shared) (moves : List Move) : Shared := moves.foldl step s

def AnyOpened (s : Shared) : Prop := ∃ client version, s.phase client = .opened version

/-- What holds at any time of clients that share a database that was `start` when they came. -/
structure Coherent (s : Shared) (start : Database) : Prop where
  noFailure : ∀ client failure, s.phase client ≠ .failed failure
  current : ∀ client version, s.phase client = .opened version → version = .current
  /-- A client that begins is told a version. -/
  asks : ∀ client now, s.phase client = .start →
    ((s.phase client).proceed now s.db).1 = .opened .current ∨
      ∃ stored, ((s.phase client).proceed now s.db).1 = .behind stored
  /-- A client that has been told a version that is behind will have opened the database next,
  however old what it was told has become. -/
  upgrades : ∀ client now stored, s.phase client = .behind stored →
    ((s.phase client).proceed now s.db).1 = .opened .current
  /-- A client that has opened the database can save. -/
  saves : ∀ client version, s.phase client = .opened version → ∀ settings items,
    ((save settings items : Work Database Unit).on s.db).1 = .ok ()
  /-- The rows are what the committed changes made of those at the start. -/
  rows : eventRows s.db = s.committed.foldl Change.apply (eventRows start)
  /-- Every version that was missing is recorded once. -/
  versions : s.AnyOpened →
    recordedVersions s.db = recordedVersions start ++ Attempt.versionsFrom (highest start)
  /-- The tables and indexes are those of a single attempt to open the database. -/
  schema : s.AnyOpened →
    ∀ now, s.db.schema = ((openLedger now : Work Database SchemaVersion).on start).2.schema

end Shared

/-! ## Stages -/

/-- A client has not opened a database yet of which it may have been told the version. -/
def Phase.Waits (stored : SchemaVersion) (phase : Phase) : Prop :=
  phase = .start ∨ phase = .behind stored

/-- A client waits, or has opened the database at the current version. -/
def Phase.Fares (stored : SchemaVersion) (phase : Phase) : Prop :=
  phase.Waits stored ∨ phase = .opened .current

/-- The stages of sharing a database. -/
inductive Stage (start : Database) (s : Shared) : Prop where
  | untouched (hs : s = .unopened start)
  /-- Clients have asked for the version, none has upgraded yet. -/
  | asked (hdb : s.db = withVersions start) (hcommitted : s.committed = [])
      (hphase : ∀ client, (s.phase client).Waits ⟨highest start⟩)
  | upToDate
      (hdb : UpToDate start s.db (s.committed.foldl Change.apply (eventRows start)))
      (hphase : ∀ client, (s.phase client).Fares ⟨highest start⟩)

variable {start db : Database} {rows : List Record} {s : Shared}

/-- A client that begins with a database that is behind is told its version. -/
theorem proceed_start_of_behind (hv : Versioned db) (hf : NameFree db)
    (hb : highest db < SchemaVersion.current.number) (now : Instant) :
    Phase.start.proceed now db = (.behind ⟨highest db⟩, withVersions db) := by
  have hc : SchemaVersion.isCurrent ⟨highest db⟩ = false := by
    simpa [SchemaVersion.isCurrent] using hb
  simp only [Phase.proceed, storedVersion_on hv hf]
  simp [Phase.asked, hc]

/-- To be asked again makes no difference. -/
theorem Openable.proceed_start_withVersions (h : Openable start) (now : Instant) :
    Phase.start.proceed now (withVersions start) =
      (.behind ⟨highest start⟩, withVersions start) := by
  obtain ⟨rows, ht, -⟩ := table?_withVersions h.versioned
  have hsome := Option.isSome_of_eq_some ht
  have hhighest : highest (withVersions start) = highest start := by
    rw [highest, Attempt.recordedVersions_withVersions, highest]
  have hproceed := proceed_start_of_behind (Attempt.versioned_withVersions h.versioned)
    (.inl hsome) (hhighest ▸ h.behind) now
  rwa [hhighest, Attempt.withVersions_eq hsome] at hproceed

/-- The first client that upgrades the database brings it up to date. -/
theorem Openable.proceed_behind (h : Openable start) (now : Instant) :
    ∃ after, (Phase.behind ⟨highest start⟩).proceed now (withVersions start) =
      (.opened .current, after) ∧ UpToDate start after (eventRows start) := by
  obtain ⟨after, hu, hafter⟩ := h.upgrade_on now
  refine ⟨after, ?_, hafter⟩
  simp only [Phase.proceed, hu]
  rfl

theorem UpToDate.proceed_start (h : UpToDate start db rows)
    (hb : highest start < SchemaVersion.current.number) (now : Instant) :
    Phase.start.proceed now db = (.opened .current, db) := by
  simp only [Phase.proceed, h.storedVersion_on hb]
  rfl

/-- A client whose upgrade comes too late changes nothing. -/
theorem UpToDate.proceed_behind (h : UpToDate start db rows) (now : Instant) :
    (Phase.behind ⟨highest start⟩).proceed now db = (.opened .current, db) := by
  simp only [Phase.proceed, h.upgrade_on now]
  rfl

/-- A change is committed, or it fails and changes nothing. -/
theorem UpToDate.change (h : UpToDate start db rows) (c : Change) :
    (∃ after, c.work.on db = (.ok (), after) ∧ UpToDate start after (c.apply rows)) ∨
      ∃ failure, c.work.on db = (.error failure, db) := by
  cases c with
  | save settings items =>
    obtain ⟨after, hs, hholds, hapart⟩ := save_on h.events settings items
    have hschema := keepsSchema_save settings items db h.distinct
    rw [hs] at hschema
    exact .inl ⟨after, hs, h.of_apart hholds hapart hschema⟩
  | purge settings now =>
    cases hc : settings.cutoff now with
    | error failure => exact .inr ⟨failure, purge_on_error hc db⟩
    | ok cutoff =>
      obtain ⟨after, hs, hholds, hapart⟩ := purge_on h.events hc
      have hschema := keepsSchema_purge settings now db h.distinct
      rw [hs] at hschema
      refine .inl ⟨after, hs, ?_⟩
      simp only [Change.apply, hc]
      exact h.of_apart hholds hapart hschema

/-! ## Runs -/

theorem forall_update {P : Phase → Prop} {phases : Nat → Phase} {phase : Phase} (hp : P phase)
    (h : ∀ client, P (phases client)) (client : Nat) :
    ∀ c, P (Function.update phases client phase c) :=
  (Function.forall_update_iff phases fun _ => P).2 ⟨hp, fun c _ => h c⟩

namespace Stage

theorem proceed (h : Openable start) (hs : Stage start s) (client : Nat) (now : Instant) :
    Stage start (s.step (.proceed client now)) := by
  simp only [Shared.step]
  cases hs with
  | untouched hs =>
    subst hs
    rw [show (Shared.unopened start).phase client = .start from rfl,
      show (Shared.unopened start).db = start from rfl,
      proceed_start_of_behind h.versioned h.nameFree h.behind]
    exact .asked rfl rfl (forall_update (.inr rfl) (fun _ => .inl rfl) client)
  | asked hdb hcommitted hphase =>
    obtain hp | hp := hphase client <;> rw [hp, hdb]
    · rw [h.proceed_start_withVersions]
      exact .asked rfl hcommitted (forall_update (.inr rfl) hphase client)
    · obtain ⟨after, hproceed, hafter⟩ := h.proceed_behind now
      rw [hproceed]
      refine .upToDate ?_ (forall_update (.inr rfl) (fun c => .inl (hphase c)) client)
      rwa [hcommitted]
  | upToDate hdb hphase =>
    have hopened : (s.phase client).proceed now s.db = (.opened .current, s.db) := by
      obtain (hp | hp) | hp := hphase client <;> rw [hp]
      · exact hdb.proceed_start h.behind now
      · exact hdb.proceed_behind now
      · rfl
    rw [hopened]
    exact .upToDate hdb (forall_update (.inr rfl) hphase client)

theorem change (hs : Stage start s) (client : Nat) (c : Change) :
    Stage start (s.step (.change client c)) := by
  simp only [Shared.step]
  split
  next version hopened =>
    cases hs with
    | untouched hs =>
      subst hs
      cases hopened
    | asked hdb hcommitted hphase =>
      obtain hp | hp := hphase client <;> cases hp.symm.trans hopened
    | upToDate hdb hphase =>
      obtain ⟨after, hw, hafter⟩ | ⟨failure, hw⟩ := hdb.change c <;> rw [hw]
      · refine .upToDate ?_ hphase
        rwa [List.foldl_append]
      · exact .upToDate hdb hphase
  next => exact hs

/-- Every transaction of every client leads from one of the stages to one of them. -/
theorem step (h : Openable start) (hs : Stage start s) (m : Move) : Stage start (s.step m) := by
  cases m with
  | proceed client now => exact hs.proceed h client now
  | change client c => exact hs.change client c

theorem run (h : Openable start) (hs : Stage start s) (moves : List Move) :
    Stage start (s.run moves) := by
  induction moves generalizing s with
  | nil => exact hs
  | cons m moves ih => exact ih (hs.step h m)

theorem fares (hs : Stage start s) (client : Nat) : (s.phase client).Fares ⟨highest start⟩ := by
  cases hs with
  | untouched hs => exact .inl (.inl (congrArg (fun t => t.phase client) hs))
  | asked _ _ hphase => exact .inl (hphase client)
  | upToDate _ hphase => exact hphase client

/-- Once a client has opened the database it is up to date. -/
theorem upToDate_of_opened (hs : Stage start s) (ho : s.AnyOpened) :
    UpToDate start s.db (s.committed.foldl Change.apply (eventRows start)) := by
  obtain ⟨client, version, ho⟩ := ho
  cases hs with
  | untouched hs =>
    subst hs
    cases ho
  | asked _ _ hphase => obtain hp | hp := hphase client <;> cases hp.symm.trans ho
  | upToDate hdb _ => exact hdb

theorem eventRows_eq (hs : Stage start s) :
    eventRows s.db = s.committed.foldl Change.apply (eventRows start) := by
  cases hs with
  | untouched hs =>
    subst hs
    rfl
  | asked hdb hcommitted _ =>
    rw [hdb, hcommitted, eventRows_withVersions]
    rfl
  | upToDate hdb _ => exact hdb.events.eventRows_eq

theorem proceed_start (h : Openable start) (hs : Stage start s) (now : Instant) :
    (Phase.start.proceed now s.db).1 = .opened .current ∨
      (Phase.start.proceed now s.db).1 = .behind ⟨highest start⟩ := by
  cases hs with
  | untouched hs =>
    subst hs
    exact .inr (congrArg Prod.fst (proceed_start_of_behind h.versioned h.nameFree h.behind now))
  | asked hdb _ _ =>
    rw [hdb, h.proceed_start_withVersions]
    exact .inr rfl
  | upToDate hdb _ =>
    rw [hdb.proceed_start h.behind]
    exact .inl rfl

theorem proceed_behind (h : Openable start) (hs : Stage start s) {client : Nat}
    {stored : SchemaVersion} (hp : s.phase client = .behind stored) (now : Instant) :
    ((s.phase client).proceed now s.db).1 = .opened .current := by
  obtain rfl : stored = ⟨highest start⟩ := by
    obtain (hf | hf) | hf := hs.fares client <;> rw [hp] at hf <;> cases hf
    rfl
  cases hs with
  | untouched hs =>
    subst hs
    cases hp
  | asked hdb _ _ =>
    obtain ⟨after, hproceed, -⟩ := h.proceed_behind now
    rw [hp, hdb, hproceed]
  | upToDate hdb _ => rw [hp, hdb.proceed_behind]

theorem coherent (h : Openable start) (hs : Stage start s) : s.Coherent start where
  noFailure client failure hp := by
    obtain (hf | hf) | hf := hs.fares client <;> cases hf.symm.trans hp
  current client version hp := by
    obtain (hf | hf) | hf := hs.fares client <;> cases hf.symm.trans hp
    rfl
  asks client now hp := by
    rw [hp]
    exact (hs.proceed_start h now).imp_right fun hb => ⟨_, hb⟩
  upgrades client now stored hp := hs.proceed_behind h hp now
  saves client version hp settings items := by
    obtain ⟨after, hsave, -⟩ :=
      save_on (hs.upToDate_of_opened ⟨client, version, hp⟩).events settings items
    rw [hsave]
  rows := hs.eventRows_eq
  versions ho := (hs.upToDate_of_opened ho).recordedVersions_eq
  schema ho := (hs.upToDate_of_opened ho).schema

end Stage

theorem coherent_of_openable (h : Openable start) (moves : List Move) :
    ((Shared.unopened start).run moves).Coherent start :=
  (Stage.run h (.untouched rfl) moves).coherent h

/-- Whatever clients share a new database, or a ledger of the first version with any rows, and in
whatever order their transactions are carried out: every attempt to open it succeeds at the current
version, the versions that were missing are recorded once, the tables and indexes are those of a
single attempt, and the rows are those that the committed changes lead to. -/
theorem coherent_run (h : start = .empty ∨ AtFirst start rows) (moves : List Move) :
    ((Shared.unopened start).run moves).Coherent start := by
  have hopenable : Openable start := by
    obtain rfl | h := h
    · exact openable_empty
    · exact h.openable
  exact coherent_of_openable hopenable moves

/-- Two clients are told the first version; one of them upgrades the ledger and purges it before the
other one does what it has been told to do. -/
theorem coherent_two_clients :
    AtFirst (firstLedger [[.integer 1]]) [[.integer 1]] ∧
      ((Shared.unopened (firstLedger [[.integer 1]])).run [.proceed 0 .epoch, .proceed 1 .epoch,
        .proceed 0 .epoch, .change 0 (.purge default .epoch), .proceed 1 .epoch]).Coherent
          (firstLedger [[.integer 1]]) :=
  ⟨atFirst_firstLedger _, coherent_run (.inr (atFirst_firstLedger _)) _⟩

/-- Such a ledger is what the first version itself makes of a new database, with whatever rows are
then put into it. -/
theorem coherent_of_made (now : Instant) (rows : List Record) (moves : List Move) :
    ∃ made, Database.empty.performAll [] (.execute (.createTable versionLayout) ::
        ledgerHooks.statements (.migrate 1) ++ [recordVersion now 1]) = .ok (made, []) ∧
      ((Shared.unopened (made.setTable ⟨layout, rows⟩)).run moves).Coherent
        (made.setTable ⟨layout, rows⟩) := by
  obtain ⟨made, hmade, hfirst⟩ := exists_atFirst now rows
  exact ⟨made, hmade, coherent_of_openable hfirst.openable moves⟩

end AdLedger.Store
