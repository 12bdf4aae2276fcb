import AdLedger.Observer.Event
import AdLedger.Settings.File

/-!
# Settings handles

Settings in use, perhaps backed by a file. They change when usable ones are set, and when the file
is read again and holds usable ones; a change of one of the ledger's preferences makes it be read
again. Whatever fails leaves them as they were.
-/

namespace AdLedger

/-- The settings in use, and the path of the file they come from if there is one. -/
structure SettingsHandle where
  settings : Settings
  path : Option String
  deriving DecidableEq

namespace SettingsHandle

def ofSettings (s : Settings) : SettingsHandle := ⟨s, none⟩

/-- The settings of a file, usable or not. -/
def ofFile (fs : Files) (path : String) : Except Failure SettingsHandle := do
  return ⟨← Settings.load fs path, some path⟩

/-- Puts usable settings in the place of those in use. -/
def set (h : SettingsHandle) (s : Settings) : Except Failure Unit × SettingsHandle :=
  match s.validate with
  | .ok () => (.ok (), { h with settings := s })
  | .error failure => (.error failure, h)

/-- Reads the file again. Without a file nothing happens. -/
def reload (h : SettingsHandle) (fs : Files) : Except Failure Unit × SettingsHandle :=
  match h.path with
  | none => (.ok (), h)
  | some path =>
    match Settings.load fs path with
    | .ok s => h.set s
    | .error failure => (.error failure, h)

/-- How the paths of the ledger's preferences begin. -/
def preferencePrefix : String := "ad_history."

/-- Whether an event is about a preference of the ledger. -/
def concerns : Event → Bool
  | .prefDidChange path => path.startsWith preferencePrefix
  | _ => false

/-- Reads the file again after a change of the ledger's preferences; a failure is passed over. -/
def observe (h : SettingsHandle) (fs : Files) (event : Event) : SettingsHandle :=
  if concerns event then (h.reload fs).2 else h

def batchSize (h : SettingsHandle) : Nat := h.settings.effectiveBatchSize

end SettingsHandle
end AdLedger
