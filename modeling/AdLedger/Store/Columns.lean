import AdLedger.Item.Basic
import AdLedger.Sql.Transaction
import AdLedger.Time.Platform

/-!
# Items as rows

The columns in which the ledger keeps an item, and the way between items and rows. Reading a row
never fails: what is missing or of another type is read as nothing, which for most columns makes
the item one that is not valid.
-/

namespace AdLedger.Store

open Sql Time

/-- The columns and their types, in order. -/
def columns : List (String × ColumnType) :=
  [("created_at", .int), ("ad_type", .text), ("confirmation_type", .text), ("placement_id", .text),
    ("creative_instance_id", .text), ("creative_set_id", .text), ("campaign_id", .text),
    ("advertiser_id", .text), ("segment", .text), ("title", .text), ("description", .text),
    ("target_url", .text)]

def columnNames : List String := columns.map (·.1)

def columnTypes : List ColumnType := columns.map (·.2)

def encode (i : Item) : List Scalar :=
  [.int i.createdAt.toPlatform, .text i.adType.name, .text i.confirmationType.name,
    .text i.placementId, .text i.creativeInstanceId, .text i.creativeSetId, .text i.campaignId,
    .text i.advertiserId, .text i.segment, .text i.title, .text i.description, .text i.targetText]

/-- The integer at a place of a row; 0 if there is none. -/
def intAt (r : Row) (i : Nat) : Int64 :=
  match r[i]? with
  | some (some (.int n)) => n
  | _ => 0

/-- The text at a place of a row; nothing if there is none. -/
def textAt (r : Row) (i : Nat) : String :=
  match r[i]? with
  | some (some (.text s)) => s
  | _ => ""

def decode (r : Row) : Item where
  createdAt := .ofPlatform (intAt r 0)
  adType := .ofName (textAt r 1)
  confirmationType := .ofName (textAt r 2)
  placementId := textAt r 3
  creativeInstanceId := textAt r 4
  creativeSetId := textAt r 5
  campaignId := textAt r 6
  advertiserId := textAt r 7
  segment := textAt r 8
  title := textAt r 9
  description := textAt r 10
  targetUrl := Url.read? (textAt r 11)

/-- The values of the valid ones among items, one item after the other. -/
def encodeValid (items : List Item) : List Scalar := (items.filter Item.isValid).flatMap encode

/-- The valid ones among the items of rows. -/
def decodeValid (rows : List Row) : List Item := (rows.map decode).filter Item.isValid

end AdLedger.Store
