/-!
# Ad types

The kinds of placement an ad event can belong to, and their stored names. Reading a name back gives
the ad type it was written for; any other text reads as `undefined`.
-/

namespace AdLedger

/-- The kind of placement an ad event belongs to. -/
inductive AdType where
  | undefined
  | notification
  | newTabPage
  | promotedContent
  | inlineContent
  | searchResult
  deriving DecidableEq, Inhabited

namespace AdType

/-- The ad types an event can have, all but `undefined`. -/
def defined : List AdType :=
  [notification, newTabPage, promotedContent, inlineContent, searchResult]

def name : AdType → String
  | undefined => "undefined"
  | notification => "ad_notification"
  | newTabPage => "new_tab_page_ad"
  | promotedContent => "promoted_content_ad"
  | inlineContent => "inline_content_ad"
  | searchResult => "search_result_ad"

/-- The ad type with this stored name; `undefined` where there is none. -/
def ofName (s : String) : AdType := (defined.find? (·.name = s)).getD undefined

def isDefined (t : AdType) : Bool := t ≠ undefined

@[simp] theorem ofName_name (t : AdType) : ofName t.name = t := by cases t <;> decide

end AdType
end AdLedger
