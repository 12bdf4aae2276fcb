import AdLedger.Item.Basic
import AdLedger.Json.Reader
import AdLedger.Time.Printer
import AdLedger.Time.Reader

/-!
# Items as documents

The document of an item and the item of a document. A document needs the time, the types and the
identifiers; a name that is no type is read as none, and so is a target that is no URL.
-/

namespace AdLedger.Item

open Time (Instant)

/-- The names of an item's members, in their order. -/
def memberNames : List String :=
  ["created_at", "type", "confirmation_type", "placement_id", "creative_instance_id",
    "creative_set_id", "campaign_id", "advertiser_id", "segment", "title", "description",
    "target_url"]

/-- The values of an item's members, in their order. -/
def memberValues (i : Item) : List Json :=
  [.ofString i.createdAt.text, .ofString i.adType.name, .ofString i.confirmationType.name,
    .ofString i.placementId, .ofString i.creativeInstanceId, .ofString i.creativeSetId,
    .ofString i.campaignId, .ofString i.advertiserId, .ofString i.segment, .ofString i.title,
    .ofString i.description, .ofOption (i.targetUrl.map fun url => .ofString url.text)]

def toJson (i : Item) : Json := .record (memberNames.zip i.memberValues)

def text (i : Item) : String := i.toJson.line

/-- The text of a member that must be there. -/
def required (j : Option Json) : Option String := j.bind Json.string?

/-- The text of a member; nothing if it is absent. -/
def optional : Option Json → Option String
  | none => some ""
  | some j => j.string?

/-- The target of a document: none if it is absent, null or no URL. -/
def target : Option Json → Option (Option Url)
  | none | some .null => some none
  | some j => j.string?.map Url.read?

def ofJson? (j : Json) : Option Item := do
  match ← j.fields? memberNames with
  | [createdAt, adType, confirmationType, placementId, creativeInstanceId, creativeSetId,
      campaignId, advertiserId, segment, title, description, targetUrl] =>
    return {
      createdAt := ← Instant.read? (← required createdAt)
      adType := .ofName (← required adType)
      confirmationType := .ofName (← required confirmationType)
      placementId := ← required placementId
      creativeInstanceId := ← required creativeInstanceId
      creativeSetId := ← required creativeSetId
      campaignId := ← required campaignId
      advertiserId := ← required advertiserId
      segment := ← optional segment
      title := ← optional title
      description := ← optional description
      targetUrl := ← target targetUrl }
  | _ => none

def read? (s : String) : Option Item := (Json.read? s).bind ofJson?

def readAll? (s : String) : Option (List Item) := do (← (← Json.read? s).items?).mapM ofJson?

end AdLedger.Item
