import AdLedger.Cli.Guidance
import AdLedger.Cli.Run
import AdLedger.Sql.Snapshot
import Std.Time.DateTime.Timestamp

/-!
# The program

Reads the files that a command line is about into a tree of files, runs the program on it, and makes
the changes that the run has made to the tree.
-/

open AdLedger AdLedger.Cli

namespace AdLedger.Main

def written (p : Path) : String := "/" ++ "/".intercalate p

def nodeOf (content : String) : Node :=
  match Sql.Database.ofSnapshot? content with
  | some db => .database db
  | none => .text content

/-- What is in the file system under a path in a directory that exists. -/
def look (path : String) : IO (Option Node) := do
  try
    return some (nodeOf (← IO.FS.readFile path))
  catch
    | .noFileOrDirectory .. => return none
    | .inappropriateType .. => return some .directory
    | _ => return some (.text "\uFFFD")

/-- Reads what names lead through, as far as there are directories. -/
def fetchNames (fs : Files) (start : Path) : List String → IO Files
  | [] => return fs
  | name :: rest => do
    if name = "" ∨ name = "." then fetchNames fs start rest
    else if name = ".." then fetchNames fs start.dropLast rest
    else
      let p := start ++ [name]
      match ← look (written p) with
      | none => return fs
      | some .directory => fetchNames (fs.put p .directory) p rest
      | some node => return fs.put p node

/-- Reads what a path leads through. -/
def fetch (fs : Files) (path : String) : IO Files :=
  let (start, names) := fs.names path
  fetchNames fs start names

/-- The paths that an invocation is about. -/
def paths (i : Invocation) (env : Environment) : List String :=
  let places := i.places env
  let inputs := match i.action with
    | .importItems file | .rank file => [file]
    | _ => []
  (places.database.map fun path => path :: companions path).getD [] ++ places.settings.toList ++
    inputs

/-- The directories above a place in the tree, and the place itself. -/
def above (p : Path) : List Path := (List.range p.length).map fun n => p.take (n + 1)

/-- Keeps in the file system what is kept under a place in the tree. -/
def store (p : Path) : Node → IO Unit
  | .directory => IO.FS.createDirAll (written p)
  | .text content => IO.FS.writeFile (written p) content
  | .database db => IO.FS.writeFile (written p) db.snapshot

/-- Makes the changes that lead from one tree to another. -/
def apply (before after : Files) : IO Unit := do
  for (p, _) in before.nodes do
    if (after.node? p).isNone then IO.FS.removeFile (written p)
  for (p, node) in after.nodes do
    if before.node? p ≠ some node then store p node

/-- The variables that the program looks at. -/
def variableNames : List String :=
  ["ADH_DB", "ADH_CONFIG", "HOME", "XDG_DATA_HOME", "XDG_CONFIG_HOME", "NO_COLOR", "CLICOLOR",
    "CLICOLOR_FORCE"]

def readEnvironment : IO Environment := do
  let values ← variableNames.mapM fun name => return (← IO.getEnv name).map (name, ·)
  return values.filterMap id

/-- The present time, without the part finer than a microsecond. -/
def present : IO Time.Instant := do
  let now ← Std.Time.Timestamp.now
  let t := Time.Instant.ofParts? now.val.second.val now.val.nano.val.toNat
  return (t.getD default).truncate

/-- A name made of random digits, in the form of a random identifier of version 4. -/
def freshId : IO String := do
  let bytes := (← IO.getRandomBytes 16).toList
  let digits := (Sql.hexadecimal bytes).toLower.toList
  let group (first last : Nat) : String := String.ofList ((digits.drop first).take (last - first))
  return "-".intercalate
    [group 0 8, group 8 12, "4" ++ group 13 16, "a" ++ group 17 20, group 20 32]

/-- Tells the user why a command line was not carried out. -/
def refuse (fault : UsageFault) : IO Unit := do
  match fault with
  | .helpWanted => IO.println ("\n".intercalate Invocation.grammar.summary)
  | .versionWanted => IO.println ("adh " ++ Report.programVersion)
  | .nothingGiven => IO.eprintln ("\n".intercalate Invocation.grammar.summary)
  | _ => IO.eprintln ("error: " ++ fault.message)

/-- The tree with what an invocation is about. -/
def gather (i : Option Invocation) (env : Environment) : IO Files := do
  let directory := (← IO.currentDir).toString
  let here : Path := (Files.pieces directory).filter (· ≠ "")
  let fs : Files := ⟨(above here).map (·, .directory), here⟩
  match i with
  | some i => (paths i env).foldlM fetch fs
  | none => return fs

end AdLedger.Main

open AdLedger.Main in
/-- Runs the program and returns its exit code. -/
def main (words : List String) : IO UInt32 := do
  let environment ← readEnvironment
  let before ← gather (Invocation.read environment words).toOption environment
  let around : Surroundings :=
    ⟨environment, ← present, ← freshId, ← (← IO.getStdout).isTty⟩
  let (result, after) := run around words before
  apply before after
  match result with
  | .error fault =>
    refuse fault
    return fault.exitCode.toUInt32
  | .ok outcome =>
    IO.print outcome.output
    IO.eprint outcome.errors
    return outcome.exitCode.toUInt32
