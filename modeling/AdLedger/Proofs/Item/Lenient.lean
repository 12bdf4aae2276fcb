import AdLedger.Proofs.Item.Reading
import AdLedger.Proofs.Json.Members

/-!
# Members that may say anything

Three members of an item are taken whatever their texts say (`Lenient`): a name that is no type is
read as none, and so is a target that is no URL. An item is read by the values that its document has
for the names of its members (`Says`). So with another text for one of the three members the
document is read as the item with what that text says (`Says.put`), and in an array of items no
other item is read otherwise (`Lenient.exists_gap`).
-/

namespace AdLedger.Item

open Json (Gap unquote?)
open Time (Instant)

/-- A member whose text is taken whatever it says. -/
inductive Lenient where
  | adType
  | confirmationType
  | targetUrl

namespace Lenient

/-- Where the member stands among those of an item. -/
def place : Lenient → Nat
  | adType => 1
  | confirmationType => 2
  | targetUrl => 11

/-- The item with what a text says for the member. -/
def put (text : String) (i : Item) : Lenient → Item
  | adType => { i with adType := .ofName text }
  | confirmationType => { i with confirmationType := .ofName text }
  | targetUrl => { i with targetUrl := Url.read? text }

end Lenient

/-! ## What the values of members say -/

/-- The values of an item's members, in their order, say what the item says. -/
inductive Says : List (Option Json) → Item → Prop where
  | intro {created ad confirmation placement creative set campaign advertiser segment title
      description url : Option Json} {i : Item}
      (createdAt : (required created).bind Instant.read? = some i.createdAt)
      (adType : (required ad).map AdType.ofName = some i.adType)
      (confirmationType :
        (required confirmation).map ConfirmationType.ofName = some i.confirmationType)
      (placementId : required placement = some i.placementId)
      (creativeInstanceId : required creative = some i.creativeInstanceId)
      (creativeSetId : required set = some i.creativeSetId)
      (campaignId : required campaign = some i.campaignId)
      (advertiserId : required advertiser = some i.advertiserId)
      (segmentText : optional segment = some i.segment)
      (titleText : optional title = some i.title)
      (descriptionText : optional description = some i.description)
      (targetUrl : target url = some i.targetUrl) :
    Says [created, ad, confirmation, placement, creative, set, campaign, advertiser, segment, title,
      description, url] i

theorem ofJson?_eq_some_iff {j : Json} {i : Item} :
    ofJson? j = some i ↔ ∃ values, j.fields? memberNames = some values ∧ Says values i := by
  constructor
  · intro h
    obtain ⟨values, hv, h⟩ := Option.bind_eq_some_iff.1 h
    refine ⟨values, hv, ?_⟩
    split at h
    · obtain ⟨created, hcreated, h⟩ := Option.bind_eq_some_iff.1 h
      obtain ⟨createdAt, hcreatedAt, h⟩ := Option.bind_eq_some_iff.1 h
      obtain ⟨ad, had, h⟩ := Option.bind_eq_some_iff.1 h
      obtain ⟨confirmation, hconfirmation, h⟩ := Option.bind_eq_some_iff.1 h
      obtain ⟨placement, hplacement, h⟩ := Option.bind_eq_some_iff.1 h
      obtain ⟨creative, hcreative, h⟩ := Option.bind_eq_some_iff.1 h
      obtain ⟨set, hset, h⟩ := Option.bind_eq_some_iff.1 h
      obtain ⟨campaign, hcampaign, h⟩ := Option.bind_eq_some_iff.1 h
      obtain ⟨advertiser, hadvertiser, h⟩ := Option.bind_eq_some_iff.1 h
      obtain ⟨segment, hsegment, h⟩ := Option.bind_eq_some_iff.1 h
      obtain ⟨title, htitle, h⟩ := Option.bind_eq_some_iff.1 h
      obtain ⟨description, hdescription, h⟩ := Option.bind_eq_some_iff.1 h
      obtain ⟨url, hurl, h⟩ := Option.bind_eq_some_iff.1 h
      cases h
      exact ⟨by rw [hcreated, Option.bind_some, hcreatedAt], by rw [had, Option.map_some],
        by rw [hconfirmation, Option.map_some], hplacement, hcreative, hset, hcampaign,
        hadvertiser, hsegment, htitle, hdescription, hurl⟩
    · cases h
  · rintro ⟨_, hv, ⟨createdAt, adType, confirmationType, placementId, creativeInstanceId,
      creativeSetId, campaignId, advertiserId, segmentText, titleText, descriptionText, targetUrl⟩⟩
    obtain ⟨created, hcreated, hcreatedAt⟩ := Option.bind_eq_some_iff.1 createdAt
    obtain ⟨ad, had, hadType⟩ := Option.map_eq_some_iff.1 adType
    obtain ⟨confirmation, hconfirmation, hconfirmationType⟩ :=
      Option.map_eq_some_iff.1 confirmationType
    rw [ofJson?, bind_of_eq hv]
    dsimp only
    rw [bind_of_eq hcreated, bind_of_eq hcreatedAt, bind_of_eq had, bind_of_eq hconfirmation,
      bind_of_eq placementId, bind_of_eq creativeInstanceId, bind_of_eq creativeSetId,
      bind_of_eq campaignId, bind_of_eq advertiserId, bind_of_eq segmentText, bind_of_eq titleText,
      bind_of_eq descriptionText, bind_of_eq targetUrl, hadType, hconfirmationType]
    rfl

/-- With another text for a member, the values say what the item with this text says. -/
theorem Says.put {values : List (Option Json)} {i : Item} (h : Says values i) (m : Lenient)
    {written text : List Char} (hw : unquote? written = some text) :
    Says (values.set m.place (some (.text written))) (m.put (String.ofList text) i) := by
  have hstring : Json.string? (.text written) = some (String.ofList text) := by
    rw [Json.string?, hw, Option.map_some]
  cases h with
  | intro createdAt adType confirmationType placementId creativeInstanceId creativeSetId campaignId
      advertiserId segmentText titleText descriptionText targetUrl =>
    cases m with
    | adType =>
      have hnew : (required (some (.text written))).map AdType.ofName =
          some (.ofName (String.ofList text)) := congrArg (Option.map _) hstring
      exact ⟨createdAt, hnew, confirmationType, placementId, creativeInstanceId, creativeSetId,
        campaignId, advertiserId, segmentText, titleText, descriptionText, targetUrl⟩
    | confirmationType =>
      have hnew : (required (some (.text written))).map ConfirmationType.ofName =
          some (.ofName (String.ofList text)) := congrArg (Option.map _) hstring
      exact ⟨createdAt, adType, hnew, placementId, creativeInstanceId, creativeSetId, campaignId,
        advertiserId, segmentText, titleText, descriptionText, targetUrl⟩
    | targetUrl =>
      show Says _ { i with targetUrl := Url.read? (String.ofList text) }
      have hnew : target (some (.text written)) = some (Url.read? (String.ofList text)) :=
        congrArg (Option.map Url.read?) hstring
      exact ⟨createdAt, adType, confirmationType, placementId, creativeInstanceId, creativeSetId,
        campaignId, advertiserId, segmentText, titleText, descriptionText, hnew⟩

theorem exists_unquote?_of_string? {written : List Char} {s : String}
    (h : Json.string? (.text written) = some s) : ∃ text, unquote? written = some text := by
  obtain ⟨text, htext, -⟩ := Option.map_eq_some_iff.1 h
  exact ⟨text, htext⟩

/-- What stands for the text of a member in the document of an item is one. -/
theorem Says.exists_unquote? {values : List (Option Json)} {i : Item} (h : Says values i)
    {m : Lenient} {written : List Char} (hm : values[m.place]? = some (some (.text written))) :
    ∃ text, unquote? written = some text := by
  cases h with
  | intro createdAt adType confirmationType placementId creativeInstanceId creativeSetId campaignId
      advertiserId segmentText titleText descriptionText targetUrl =>
    cases m with
    | adType =>
      cases hm
      obtain ⟨s, hs, -⟩ := Option.map_eq_some_iff.1 adType
      exact exists_unquote?_of_string? hs
    | confirmationType =>
      cases hm
      obtain ⟨s, hs, -⟩ := Option.map_eq_some_iff.1 confirmationType
      exact exists_unquote?_of_string? hs
    | targetUrl =>
      cases hm
      obtain ⟨s, hs, -⟩ := Option.map_eq_some_iff.1 targetUrl
      exact exists_unquote?_of_string? hs

/-- What stands for the text that a document gives for the member. -/
def Lenient.Given (m : Lenient) (j : Json) (written : List Char) : Prop :=
  ∃ values, j.fields? memberNames = some values ∧ values[m.place]? = some (some (.text written))

/-- Where an array is read as items, a text for a member of one of them stands in a gap of the
document: whatever text is put there, all items are read again, and only this one can be another. -/
theorem Lenient.exists_gap {m : Lenient} {content : String} {elements : List Json}
    {items : List Item} {k : Nat} {j : Json} {written : List Char}
    (hc : Json.read? content = some (.array elements)) (hi : elements.mapM ofJson? = some items)
    (hj : elements[k]? = some j) (hm : m.Given j written) :
    ∃ (g : Gap) (before : List Item) (i : Item) (after : List Item),
      content = g.fill written ∧ items = before ++ i :: after ∧ before.length = k ∧
      ∀ other text, unquote? other = some text →
        readAll? (g.fill other) = some (before ++ m.put (String.ofList text) i :: after) := by
  obtain ⟨values, hvalues, hplace⟩ := hm
  obtain ⟨firsts, lasts, rfl, rfl⟩ := Json.exists_append_cons hj
  obtain ⟨before, i, after, rfl, hbefore, hi, hafter⟩ := Json.mapM_append_cons_eq_some_iff.1 hi
  obtain ⟨values', hvalues', hsays⟩ := ofJson?_eq_some_iff.1 hi
  cases hvalues.symm.trans hvalues'
  obtain ⟨text, hw⟩ := hsays.exists_unquote? hplace
  obtain ⟨f, hf, rfl⟩ := Json.exists_asked hvalues hplace
  obtain ⟨g, rfl, hg⟩ := (Json.Context.item hf.context firsts lasts).exists_gap
    (Json.Token.taken_of_unquote? hw) hc
  refine ⟨g, before, i, after, rfl, rfl, Json.length_of_mapM hbefore, fun other text' ho => ?_⟩
  have hnew : ofJson? (f (.text other)) = some (m.put (String.ofList text') i) :=
    ofJson?_eq_some_iff.2
      ⟨_, hf.fields?_set nodup_memberNames hvalues (.text other), hsays.put m ho⟩
  rw [readAll?, hg other (Json.Token.taken_of_unquote? ho)]
  exact Json.mapM_append_cons_eq_some_iff.2 ⟨_, _, _, rfl, hbefore, hnew, hafter⟩

end AdLedger.Item
