import AdLedger.Candidate
import AdLedger.Cli.Style
import AdLedger.Item.Document
import AdLedger.Settings.Basic
import AdLedger.Store.Schema

/-!
# Reports

What a command has to tell when it has succeeded, as a document for programs and as text for people.
-/

namespace AdLedger.Cli

open Store (SchemaVersion)
open Time (Instant)

/-- What a command has to tell. -/
inductive Report where
  | created (path : String) (schema : SchemaVersion)
  | recorded (item : Item)
  | imported (file : String) (kept skipped : Nat)
  | found (items : List Item)
  | purged (retentionDays : Nat) (cutoff : Instant)
  /-- How many buckets there are, and the candidates of the first. -/
  | ranked (buckets : Nat) (best : List Candidate)
  | inUse (path : String) (settings : Settings)
  | version
  | silence

namespace Report

def programVersion : String := "0.1.0"

/-- The kind of build. -/
def build : String := "dev"

/-- The priority that the best candidates share. -/
def priority? (best : List Candidate) : Option Nat := best.head?.map Candidate.priority

/-- The report as a document, unless it is silence. -/
def toJson? : Report → Option Json
  | created path schema => some <| .record [("database", .ofString path),
      ("schema_version", .ofNat schema.number)]
  | recorded item => some item.toJson
  | imported _ kept skipped => some <| .record [("imported", .ofNat kept),
      ("skipped", .ofNat skipped)]
  | found items => some <| .record [("items", .array (items.map Item.toJson)),
      ("count", .ofNat items.length)]
  | purged retentionDays cutoff => some <| .record [("retention_period_days", .ofNat retentionDays),
      ("cutoff", .ofString cutoff.offsetText)]
  | ranked buckets best => some <| .record [("priority", .ofOption ((priority? best).map .ofNat)),
      ("buckets", .ofNat buckets), ("creative_ads", .array (best.map Candidate.toJson))]
  | inUse path settings => some <| .record (("path", .ofString path) :: settings.members)
  | version => some <| .record [("version", .ofString programVersion), ("build", .ofString build),
      ("schema_version", .ofNat SchemaVersion.current.number)]
  | silence => none

/-- Text with blanks after it that fill it up to a width. -/
def leftAligned (width : Nat) (text : String) : String :=
  text ++ String.ofList (List.replicate (width - text.length) ' ')

def itemLine (style : Style → String → String) (i : Item) : String :=
  "  ".intercalate [style .dimmed i.createdAt.plainText,
    style .yellow (leftAligned 10 i.confirmationType.name) ++ " " ++ leftAligned 20 i.adType.name ++
      " " ++ style .bold i.placementId,
    style .dimmed i.targetText]

def foundLines (style : Style → String → String) (items : List Item) : List String :=
  if items.isEmpty then ["No ad history found."]
  else items.map (itemLine style) ++ [s!"{Text.natural items.length} item(s)"]

def rankedLines (style : Style → String → String) (buckets : Nat) (best : List Candidate) :
    List String :=
  match priority? best with
  | none => ["No eligible creative ads."]
  | some priority =>
    let counts := s!"{Text.natural best.length} creative ad(s), {Text.natural buckets} bucket(s)"
    let candidate (c : Candidate) : String :=
      "  " ++ style .bold c.creativeInstanceId ++ "  " ++ style .dimmed c.segment
    (style .heading ("Priority " ++ Text.natural priority) ++ ": " ++ counts ++ " in total") ::
      best.map candidate

def lines (style : Style → String → String) : Report → List String
  | created path schema => ["Initialized ad history database", s!"  Database: {path}",
      s!"  Schema:   {schema.text}"]
  | recorded item =>
    [s!"Recorded {item.confirmationType.name} for {item.adType.name} placement {item.placementId}"]
  | imported file kept skipped =>
    s!"Imported {Text.natural kept} item(s) from {file}" ::
      if 0 < skipped then [s!"  Skipped {Text.natural skipped} invalid item(s)"] else []
  | found items => foundLines style items
  | purged retentionDays cutoff =>
    [s!"Purged ad history created on or before {cutoff.plainText} " ++
      s!"({Text.natural retentionDays} day retention)"]
  | ranked buckets best => rankedLines style buckets best
  | inUse path settings => [s!"Config: {path}",
      s!"  retention_period_days: {Text.natural settings.retentionDays}",
      s!"  batch_size:            {Text.natural settings.batchSize}"]
  | version => [s!"adh version {programVersion} ({build}, schema {SchemaVersion.current.text})"]
  | silence => []

def joined (lines : List String) : String := String.join (lines.map (· ++ "\n"))

/-- What is written for a report. -/
def render (json styled : Bool) (r : Report) : String :=
  let style (s : Style) (text : String) : String := if styled then s.apply text else text
  joined (if json then r.toJson?.toList.map Json.line else r.lines style)

end Report
end AdLedger.Cli
