import AdLedger.Settings.Handle
import AdLedger.Settings.Location
import AdLedger.Store.Migration

/-!
# Work with files

Commands work on files. They read texts, and do work with the database that is kept under a path;
what such work has done to the database is kept also if it fails later on.
-/

namespace AdLedger.Cli

open Sql (Database)
open Store (Work SchemaVersion)
open Time (Instant)

/-- Goes on if there is no failure. -/
def require {σ α : Type} (result : Except Failure α) : Work σ α := ExceptT.mk (pure result)

/-- Goes on if what was given is in order. -/
def requireArgument {σ α : Type} (result : Except ArgumentFault α) : Work σ α :=
  require (result.mapError .argument)

def ask {α : Type} (question : Files → Except FileFault α) : Work Files α := fun fs =>
  ((question fs).mapError fun fault => .file fault.message, fs)

def alter (change : Files → Except FileFault Files) : Work Files Unit := fun fs =>
  match change fs with
  | .ok changed => (.ok (), changed)
  | .error fault => (.error (.file fault.message), fs)

/-- The path of a database that is kept nowhere. -/
def nowhere : String := ":memory:"

/-- The paths of the files that may be beside a database while it is in use. -/
def companions (path : String) : List String := [path ++ "-wal", path ++ "-shm"]

/-- The database under a path. Where nothing is, or an empty text, it has no tables. -/
def databaseAt (fs : Files) (path : String) : Except Failure Database :=
  if path = nowhere then .ok Database.empty
  else match fs.find path with
    | .ok (_, .database db) => .ok db
    | .ok (_, .text content) =>
      if content = "" then .ok Database.empty else .error (.database "file is not a database")
    | .ok (_, .directory) => .error (.database "unable to open database file")
    | .error _ => .ok Database.empty

def discard (fs : Files) (path : String) : Files := (fs.remove path).toOption.getD fs

/-- Keeps a database under a path. Nothing is left beside it. -/
def keepDatabase (fs : Files) (path : String) (db : Database) : Except Failure Files :=
  if path = nowhere then .ok fs
  else match fs.write path (.database db) with
    | .ok kept => .ok ((companions path).foldl discard kept)
    | .error fault => .error (.database fault.message)

/-- Does work with the database under a path. -/
def withDatabase {α : Type} (path : String) (work : Work Database α) : Work Files α := fun fs =>
  match databaseAt fs path with
  | .error failure => (.error failure, fs)
  | .ok db =>
    let (result, after) := work.run.run db
    match keepDatabase fs path after with
    | .ok kept => (result, kept)
    | .error failure => (.error failure, fs)

/-- Does work with the ledger under a path, which has to exist, after bringing it up to date. -/
def withLedger {α : Type} (path : Option String) (now : Instant) (work : Work Database α) :
    Work Files α := do
  match path with
  | none => throw .notInitialized
  | some path =>
    if !(← get).contains path then throw .notInitialized
    withDatabase path do
      let _ ← Store.openLedger now
      work

/-- The settings in the file under a path, or the usual ones if there is no path. -/
def loadSettings (path : Option String) : Work Files SettingsHandle := fun fs =>
  match path with
  | some path => (SettingsHandle.ofFile fs path, fs)
  | none => (.ok (.ofSettings .standard), fs)

def saveSettings (path : String) (settings : Settings) : Work Files Unit := fun fs =>
  settings.save fs path

end AdLedger.Cli
