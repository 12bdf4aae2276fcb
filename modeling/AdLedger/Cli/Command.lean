import AdLedger.Cli.Draft
import AdLedger.Cli.Report
import AdLedger.Cli.Storage
import AdLedger.Observer.Registry
import AdLedger.Store.Ledger

/-!
# Commands

What each command does with the files, and what it has to tell then.
-/

namespace AdLedger.Cli

open Sql (Database)
open Store (Work)
open Time (Instant)

/-- What a run of the program finds around it. -/
structure Surroundings where
  environment : Environment
  now : Instant
  /-- A name that no placement has. -/
  freshId : String
  /-- Whether answers go to a terminal. -/
  terminal : Bool

/-- Where the database and the settings are, if that can be told. -/
structure Places where
  database : Option String
  settings : Option String

def Invocation.places (i : Invocation) (env : Environment) : Places :=
  ⟨Location.database env i.database, Location.settings env i.settings⟩

/-- A path that has to be known. -/
def located (fault : SettingsFault) (path : Option String) : Work Files String :=
  match path with
  | some path => pure path
  | none => throw (.settings fault)

def removeDatabase (path : String) : Work Files Unit := do
  alter (·.remove path)
  for companion in companions path do
    if (← get).contains companion then alter (·.remove companion)

/-- Creates the database, in the place of one that exists if that is wanted. -/
def create (places : Places) (force : Bool) (now : Instant) : Work Files Report := do
  let path ← located .databaseNowhere places.database
  if (← get).contains path then
    if force then removeDatabase path else throw (.alreadyInitialized path)
  alter (Settings.makeParent · path)
  let _ ← loadSettings places.settings
  let version ← withDatabase path (Store.openLedger now)
  return .created path version

/-- Keeps the event that a draft describes. -/
def record (places : Places) (draft : Draft) (now : Instant) (freshId : String) :
    Work Files Report := do
  let item ← requireArgument (draft.toItem now freshId)
  let handle ← loadSettings places.settings
  withLedger places.database now (Store.save handle.settings [item])
  return .recorded item

def readItems (file : String) : Work Files (List Item) := do
  match Item.readAll? (← ask (·.read file)) with
  | some items => return items
  | none => throw (.argument (.notItems file "not an array of items"))

/-- Keeps the valid ones among the events in a file. -/
def importItems (places : Places) (file : String) (now : Instant) : Work Files Report := do
  let items ← readItems file
  let kept := (items.filter Item.isValid).length
  let handle ← loadSettings places.settings
  withLedger places.database now (Store.save handle.settings items)
  return .imported file kept (items.length - kept)

/-- Finds the events of a period, or the best ones of each placement. -/
def history (places : Places) (period : Period) (best : Bool) (now : Instant) :
    Work Files Report := do
  let handle ← loadSettings places.settings
  let (start, finish) ← requireArgument (period.resolve handle.settings.retentionDays now)
  let items ← withLedger places.database now
    (if best then Store.bestInRange start finish else Store.itemsInRange start finish)
  return .found items

def creative (places : Places) (id : String) (now : Instant) : Work Files Report := do
  let _ ← loadSettings places.settings
  return .found (← withLedger places.database now (Store.itemsOfCreative id))

/-- Forgets what is older than the retention period. -/
def purge (places : Places) (now : Instant) : Work Files Report := do
  let handle ← loadSettings places.settings
  let cutoff ← require (handle.settings.cutoff now)
  withLedger places.database now (Store.purge handle.settings now)
  return .purged handle.settings.retentionDays cutoff

def rank (file : String) : Work Files Report := do
  match Candidate.readAll? (← ask (·.read file)) with
  | none => throw (.argument (.notCandidates file "not an array of candidates"))
  | some candidates =>
    let buckets := Bucket.sort Candidate.priority candidates
    return .ranked buckets.length (Bucket.highest Candidate.priority candidates)

def showSettings (places : Places) : Work Files Report := do
  let path ← located .settingsNowhere places.settings
  let handle ← loadSettings (some path)
  return .inUse path handle.settings

/-- The preferences that differ between two settings, as events. -/
def changes (before after : Settings) : List Event :=
  let changed (differs : Bool) (name : String) : List Event :=
    if differs then [.prefDidChange (SettingsHandle.preferencePrefix ++ name)] else []
  changed (before.retentionDays ≠ after.retentionDays) "retention_period_days" ++
    changed (before.batchSize ≠ after.batchSize) "batch_size"

/-- The handle after events, of which it is the one observer. -/
def afterEvents (fs : Files) (handle : SettingsHandle) (events : List Event) : SettingsHandle :=
  let registry : Registry Unit := Registry.empty.add ()
  (events.flatMap registry.notify).foldl (fun h (_, event) => h.observe fs event) handle

/-- Puts new values into the settings file. The settings told are those in use once the changes have
been made known. -/
def changeSettings (places : Places) (retentionDays batchSize : Option Nat) :
    Work Files Report := do
  let path ← located .settingsNowhere places.settings
  let handle ← loadSettings (some path)
  let old := handle.settings
  let new : Settings := ⟨retentionDays.getD old.retentionDays, batchSize.getD old.batchSize⟩
  saveSettings path new
  let told := afterEvents (← get) handle (changes old new)
  return .inUse path told.settings

def Invocation.perform (i : Invocation) (around : Surroundings) : Work Files Report :=
  let places := i.places around.environment
  let now := around.now
  match i.action with
  | .create force => create places force now
  | .record draft => record places draft now around.freshId
  | .importItems file => importItems places file now
  | .history period best => history places period best now
  | .creative id => creative places id now
  | .purge => purge places now
  | .rank file => rank file
  | .showSettings => showSettings places
  | .changeSettings retentionDays batchSize => changeSettings places retentionDays batchSize
  | .version => pure .version
  | .completions _ => pure .silence

end AdLedger.Cli
