import AdLedger.Cli.Invocation
import AdLedger.Failure
import AdLedger.Item.Basic

/-!
# Drafts and periods

The item that a draft describes and the range of time that a period is, or what is wrong with them.
What a draft leaves open is filled in: the time by the present one, the placement by a fresh name.
-/

namespace AdLedger.Cli

open Time (Instant)

/-- What a word means, or why it means nothing. -/
def understood {α : Type} (v : Names.Vocabulary α) (fault : Names.Unknown α → ArgumentFault)
    (word : String) : Except ArgumentFault α :=
  (v.read word).mapError fault

namespace Draft

/-- The URL that a text denotes; it has to name a host. -/
def target (text : String) : Except ArgumentFault Url :=
  match (Url.read? text).filter Url.hasHost with
  | some url => .ok url
  | none => .error (.targetUrl text)

def toItem (d : Draft) (now : Instant) (freshId : String) : Except ArgumentFault Item := do
  let adType ← understood Names.adTypes .adType d.adType
  let confirmationType ← understood Names.confirmationTypes .confirmationType d.confirmationType
  let url ← target d.targetUrl
  let item : Item := {
    createdAt := (d.createdAt.map Instant.truncate).getD now
    adType := adType
    confirmationType := confirmationType
    placementId := d.placementId.getD freshId
    creativeInstanceId := d.creativeInstanceId
    creativeSetId := d.creativeSetId
    campaignId := d.campaignId
    advertiserId := d.advertiserId
    segment := d.segment
    title := d.title
    description := d.description
    targetUrl := some url }
  if item.isValid then return item else throw .emptyIdentifier

end Draft

namespace Period

/-- The start of a period that ends at an instant: the one given, else so many days earlier. -/
def startBefore (p : Period) (retentionDays : Nat) (finish : Instant) :
    Except ArgumentFault Instant :=
  match p.start with
  | some start => .ok start
  | none =>
    let days := p.days.getD retentionDays
    match finish.daysBefore? days with
    | some start => .ok start
    | none => .error (.tooManyDays days)

/-- The ends of a period. It ends now, and is as long as the retention period, if it does not say
otherwise. -/
def resolve (p : Period) (retentionDays : Nat) (now : Instant) :
    Except ArgumentFault (Instant × Instant) := do
  let finish := p.finish.getD now
  let start ← p.startBefore retentionDays finish
  if start ≤ finish then return (start, finish) else throw (.invertedRange start finish)

end Period
end AdLedger.Cli
