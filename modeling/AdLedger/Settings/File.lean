import AdLedger.Files
import AdLedger.Json.Reader
import AdLedger.Settings.Basic

/-!
# Settings files

Settings are kept in a file as a document. A file that is not there stands for the usual settings;
only usable settings are written.
-/

namespace AdLedger.Settings

def read (content : String) : Except Failure Settings :=
  match (Json.read? content).bind ofJson? with
  | some s => .ok s
  | none => .error (.settings (.malformed "not a settings document"))

/-- The settings in the file that a path leads to. They may be unusable. -/
def load (fs : Files) (path : String) : Except Failure Settings :=
  if !fs.contains path then .ok standard
  else match fs.read path with
    | .error fault => .error (.settings (.unreadable fault.message))
    | .ok content => read content

def makeParent (fs : Files) (path : String) : Except FileFault Files :=
  match Files.parent? path with
  | some parent => fs.makeDirectories parent
  | none => .ok fs

/-- Writes usable settings to the file that a path leads to, in directories made as needed. The
files are returned also after a failure, since a directory may have been made by then. -/
def save (s : Settings) (fs : Files) (path : String) : Except Failure Unit × Files :=
  match s.validate with
  | .error failure => (.error failure, fs)
  | .ok () =>
    match makeParent fs path with
    | .error fault => (.error (.settings (.noDirectory fault.message)), fs)
    | .ok made =>
      match made.write path (.text s.document) with
      | .error fault => (.error (.settings (.unwritable fault.message)), made)
      | .ok written => (.ok (), written)

end AdLedger.Settings
