import AdLedger.Sql.Database

/-!
# Files

A tree of files as a value: directories, texts and databases under their paths. A path is read
from a working directory on, and every part of it but the last has to be a directory that exists.
-/

namespace AdLedger

/-- The names on the way from the root of the tree. -/
abbrev Path := List String

/-- What is kept under a path. -/
inductive Node where
  | directory
  | text (content : String)
  | database (content : Sql.Database)
  deriving DecidableEq

/-- Why a file cannot be used as it was meant to be. -/
inductive FileFault where
  | missing
  | isDirectory
  | notDirectory
  | notText
  deriving DecidableEq

def FileFault.message : FileFault → String
  | missing => "No such file or directory (os error 2)"
  | isDirectory => "Is a directory (os error 21)"
  | notDirectory => "Not a directory (os error 20)"
  | notText => "stream did not contain valid UTF-8"

/-- A tree of files, and the directory from which paths are read. -/
structure Files where
  nodes : List (Path × Node)
  workingDirectory : Path

namespace Files

/-- What is kept under a path; the root is a directory. -/
def node? (fs : Files) (p : Path) : Option Node :=
  if p.isEmpty then some .directory else fs.nodes.lookup p

def isDirectory (fs : Files) (p : Path) : Bool := fs.node? p = some .directory

/-- Keeps something under a path, in the place of what was there. -/
def put (fs : Files) (p : Path) (node : Node) : Files :=
  { fs with nodes := fs.nodes.filter (·.1 ≠ p) ++ [(p, node)] }

def erase (fs : Files) (p : Path) : Files := { fs with nodes := fs.nodes.filter (·.1 ≠ p) }

theorem node?_put_self {fs : Files} {p : Path} (node : Node) (h : p ≠ []) :
    (fs.put p node).node? p = some node := by
  have absent : (fs.nodes.filter (·.1 ≠ p)).lookup p = none := by
    rw [List.lookup_eq_none_iff]
    intro e he
    have ne : e.1 ≠ p := by simpa using (List.mem_filter.1 he).2
    simpa using ne.symm
  unfold node? put
  rw [List.lookup_append, absent]
  simp [h]

/-- Follows names from a directory on. -/
def follow (fs : Files) (start : Path) : List String → Except FileFault Path
  | [] => .ok start
  | name :: rest =>
    if (fs.node? start).isNone then .error .missing
    else if !fs.isDirectory start then .error .notDirectory
    else if name = "" ∨ name = "." then fs.follow start rest
    else if name = ".." then fs.follow start.dropLast rest
    else fs.follow (start ++ [name]) rest

/-- The names in a path, between its slashes. -/
def pieces (path : String) : List String := (path.toList.splitOn '/').map String.ofList

/-- Where a path begins and the names in it. -/
def names (fs : Files) (path : String) : Path × List String :=
  (if path.startsWith "/" then [] else fs.workingDirectory, pieces path)

/-- The place in the tree that a path leads to, whether or not something is there. -/
def locate (fs : Files) (path : String) : Except FileFault Path :=
  if path.isEmpty then .error .missing
  else let (start, names) := fs.names path
    fs.follow start names

def find (fs : Files) (path : String) : Except FileFault (Path × Node) := do
  let p ← fs.locate path
  match fs.node? p with
  | some node => return (p, node)
  | none => throw .missing

def contains (fs : Files) (path : String) : Bool := (fs.find path).toBool

def read (fs : Files) (path : String) : Except FileFault String := do
  match (← fs.find path).2 with
  | .text content => return content
  | .directory => throw .isDirectory
  | .database _ => throw .notText

/-- Keeps a text or a database where a path leads to. -/
def write (fs : Files) (path : String) (node : Node) : Except FileFault Files := do
  let p ← fs.locate path
  if fs.isDirectory p then throw .isDirectory
  if !fs.isDirectory p.dropLast then throw .missing
  return fs.put p node

/-- Takes away the file that a path leads to. -/
def remove (fs : Files) (path : String) : Except FileFault Files := do
  let (p, node) ← fs.find path
  if node = .directory then throw .isDirectory
  return fs.erase p

/-- Makes the directories that names lead through, as far as they do not exist. -/
def makeAll (fs : Files) (start : Path) : List String → Except FileFault Files
  | [] => .ok fs
  | name :: rest =>
    if name = "" ∨ name = "." then fs.makeAll start rest
    else if name = ".." then fs.makeAll start.dropLast rest
    else
      let p := start ++ [name]
      match fs.node? p with
      | some .directory => fs.makeAll p rest
      | some _ => .error .notDirectory
      | none => (fs.put p .directory).makeAll p rest

/-- Makes the directory that a path leads to and those on the way. -/
def makeDirectories (fs : Files) (path : String) : Except FileFault Files :=
  let (start, names) := fs.names path
  fs.makeAll start names

/-- The directory part of a path: nothing for the root and for an empty path. -/
def parent? (path : String) : Option String :=
  let names := pieces path
  let inner := (names.reverse.dropWhile fun name => name = "" ∨ name = ".").reverse
  match inner with
  | [] => if path.startsWith "." then some "" else none
  | _ =>
    let kept := "/".intercalate inner.dropLast
    some (if path.startsWith "/" ∧ kept = "" then "/" else kept)

end Files
end AdLedger
