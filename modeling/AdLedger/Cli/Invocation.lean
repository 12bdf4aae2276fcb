import AdLedger.Cli.Matching

/-!
# Invocations

The commands of the program, what each of them is told, and the grammar by which a command line says
so. Options about where things are and how to answer may be given before the command or after it.
-/

namespace AdLedger.Cli

open Time (Instant)

/-- What is said about an event that is to be recorded. -/
structure Draft where
  adType : String
  confirmationType : String
  placementId : Option String
  creativeInstanceId : String
  creativeSetId : String
  campaignId : String
  advertiserId : String
  targetUrl : String
  segment : String
  title : String
  description : String
  createdAt : Option Instant

/-- What is said about a range of time: its ends, or how many days it has. -/
structure Period where
  days : Option Nat
  start : Option Instant
  finish : Option Instant

inductive Action where
  | create (force : Bool)
  | record (draft : Draft)
  | importItems (file : String)
  | history (period : Period) (best : Bool)
  | creative (id : String)
  | purge
  | rank (file : String)
  | showSettings
  | changeSettings (retentionDays batchSize : Option Nat)
  | version
  | completions (shell : String)

/-- What the program is to do, where its files are, and how it is to answer. -/
structure Invocation where
  action : Action
  database : Option String
  settings : Option String
  json : Bool
  quiet : Bool
  plain : Bool

/-! ## Grammar -/

namespace Invocation

/-- The options that every command takes. -/
def sharedOptions : List Parameter :=
  [.location "db" "ADH_DB", .location "config" "ADH_CONFIG", .switch "json",
    ⟨"verbose", some 'v', .counter, false, none⟩, (Parameter.switch "quiet").lettered 'q',
    .switch "no-color", ⟨"help", some 'h', .help, false, none⟩]

def command (options arguments : List Parameter) (conflicts : List (String × String)) : Grammar :=
  ⟨options ++ sharedOptions, arguments, conflicts, []⟩

def choice (options : List Parameter) (commands : List (String × Grammar)) : Grammar :=
  ⟨options ++ sharedOptions, [], [], commands⟩

def recordOptions : List Parameter :=
  [(Parameter.needed "ad-type" .text).lettered 't',
    (Parameter.needed "confirmation-type" .text).lettered 'c', .option "placement-id" .text,
    .needed "creative-instance-id" .text, .needed "creative-set-id" .text,
    .needed "campaign-id" .text, .needed "advertiser-id" .text, .needed "target-url" .text,
    .option "segment" .text, .option "title" .text, .option "description" .text,
    .option "created-at" .instant]

def historyOptions : List Parameter :=
  [.option "days" (.count 32), .option "from" .instant, .option "to" .instant, .switch "top"]

def changeOptions : List Parameter :=
  [.option "retention-days" (.count 32), .option "batch-size" (.size 64)]

/-- The shells for which completions can be made. -/
def shells : List String := ["bash", "zsh", "fish", "power-shell", "elvish"]

def grammar : Grammar :=
  choice [⟨"version", some 'V', .version, false, none⟩] [
    ("init", command [.switch "force"] [] []),
    ("record", command recordOptions [] []),
    ("import", command [] [.needed "file" .path] []),
    ("history", command historyOptions [] [("days", "from")]),
    ("creative", command [] [.needed "id" .text] []),
    ("purge", command [] [] []),
    ("rank", command [] [.needed "file" .path] []),
    ("config", choice [] [("show", command [] [] []), ("set", command changeOptions [] [])]),
    ("version", command [] [] []),
    ("completions", command [] [.needed "shell" (.choice shells)] [])]

end Invocation

/-! ## Reading -/

def Draft.ofMatch? (m : Match) : Option Draft := do
  return {
    adType := ← m.text? "ad-type"
    confirmationType := ← m.text? "confirmation-type"
    placementId := m.text? "placement-id"
    creativeInstanceId := ← m.text? "creative-instance-id"
    creativeSetId := ← m.text? "creative-set-id"
    campaignId := ← m.text? "campaign-id"
    advertiserId := ← m.text? "advertiser-id"
    targetUrl := ← m.text? "target-url"
    segment := (m.text? "segment").getD ""
    title := (m.text? "title").getD ""
    description := (m.text? "description").getD ""
    createdAt := m.instant? "created-at" }

def Period.ofMatch (m : Match) : Period :=
  ⟨m.number? "days", m.instant? "from", m.instant? "to"⟩

/-- What the command that was given asks for. -/
def Action.ofMatch? (m : Match) : Option Action :=
  match m.commands with
  | ["init"] => some (.create (m.has "force"))
  | ["record"] => (Draft.ofMatch? m).map .record
  | ["import"] => (m.text? "file").map .importItems
  | ["history"] => some (.history (.ofMatch m) (m.has "top"))
  | ["creative"] => (m.text? "id").map .creative
  | ["purge"] => some .purge
  | ["rank"] => (m.text? "file").map .rank
  | ["config", "show"] => some .showSettings
  | ["config", "set"] =>
    some (.changeSettings (m.number? "retention-days") (m.number? "batch-size"))
  | ["version"] => some .version
  | ["completions"] => (m.text? "shell").map .completions
  | _ => none

/-- What a command line asks for. -/
def Invocation.read (env : Environment) (words : List String) : Except UsageFault Invocation := do
  let m ← grammar.read env words
  return {
    action := ← orElse .noCommand (Action.ofMatch? m)
    database := m.text? "db"
    settings := m.text? "config"
    json := m.has "json"
    quiet := m.has "quiet"
    plain := m.has "no-color" }

end AdLedger.Cli
