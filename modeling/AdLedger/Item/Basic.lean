import AdLedger.AdType
import AdLedger.ConfirmationType
import AdLedger.Time.Instant
import AdLedger.Url.Reader

/-!
# Items

One event in the life of an ad placement. An item may say too little to be of use; the ledger keeps
and returns valid items only.
-/

namespace AdLedger

open Time (Instant)

/-- An event of a placement. -/
structure Item where
  createdAt : Instant
  adType : AdType
  confirmationType : ConfirmationType
  /-- Which placement was shown. All its events share this. -/
  placementId : String
  creativeInstanceId : String
  creativeSetId : String
  campaignId : String
  advertiserId : String
  segment : String
  title : String
  description : String
  targetUrl : Option Url
  deriving DecidableEq

namespace Item

/-- The identifiers that an item needs. -/
def identifiers (i : Item) : List String :=
  [i.placementId, i.creativeInstanceId, i.creativeSetId, i.campaignId, i.advertiserId]

/-- Whether an item may be kept: both types are defined, no identifier is empty, and the target is a
URL that names a host. -/
def isValid (i : Item) : Bool :=
  i.adType.isDefined && i.confirmationType.isDefined && i.identifiers.all (· ≠ "") &&
    i.targetUrl.any Url.hasHost

/-- The target as text; nothing if there is none. -/
def targetText (i : Item) : String :=
  match i.targetUrl with
  | some url => url.text
  | none => ""

end Item
end AdLedger
