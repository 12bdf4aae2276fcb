import AdLedger.AdType
import AdLedger.ConfirmationType
import AdLedger.Names.EditDistance
import AdLedger.Text.Lowercase

/-!
# Vocabularies

The words people may type for an ad type or a confirmation type. A word is compared in its folded
form: without blanks around it, in lower case, with `_` for `-`. A word that names nothing is given
back with the nearest value, when some name or synonym is at most three edits away.
-/

namespace AdLedger.Names

/-- The values of a type with a name for each, by which it is read back, and further words for
them. -/
structure Vocabulary (α : Type) where
  values : List α
  name : α → String
  ofName : String → α
  synonyms : List (String × α)

/-- A word that names no value, as it was typed, and the nearest value if there is one. -/
structure Unknown (α : Type) where
  word : String
  suggestion : Option α

/-- The form in which words are compared. -/
def folded (word : String) : String :=
  String.ofList ((Text.lower (Text.trimBlank word.toList)).map fun c => if c = '-' then '_' else c)

/-- How many edits away a suggestion may be. -/
def reach : Nat := 3

namespace Vocabulary

variable {α : Type}

/-- Every word of the vocabulary with the value it stands for: the names, then the synonyms. -/
def words (v : Vocabulary α) : List (String × α) :=
  v.values.map (fun a => (v.name a, a)) ++ v.synonyms

/-- The nearer of a choice made so far and one more word. -/
def nearer (word : String) (best : Option (Nat × α)) (entry : String × α) : Option (Nat × α) :=
  let d := editDistance word.toList entry.1.toList
  match best with
  | none => if d ≤ reach then some (d, entry.2) else none
  | some (least, a) => if d < least then some (d, entry.2) else some (least, a)

/-- The value of the word nearest to `word`, the first of several equally near ones. -/
def nearest (v : Vocabulary α) (word : String) : Option α :=
  (v.words.foldl (nearer word) none).map (·.2)

/-- The name for which a word in its folded form stands. -/
def canonical? (v : Vocabulary α) (word : String) : Option String :=
  (v.words.lookup word).map v.name

/-- The value that a typed word stands for. -/
def read (v : Vocabulary α) (word : String) : Except (Unknown α) α :=
  match v.canonical? (folded word) with
  | some name => .ok (v.ofName name)
  | none => .error ⟨word, v.nearest (folded word)⟩

end Vocabulary

def adTypes : Vocabulary AdType where
  values := AdType.defined
  name := AdType.name
  ofName := AdType.ofName
  synonyms := [
    ("notification", .notification), ("notification_ad", .notification), ("push", .notification),
    ("ntp", .newTabPage), ("new_tab_page", .newTabPage), ("new_tab", .newTabPage),
    ("promoted", .promotedContent), ("promoted_content", .promotedContent),
    ("inline", .inlineContent), ("inline_content", .inlineContent),
    ("search", .searchResult), ("search_result", .searchResult)]

def confirmationTypes : Vocabulary ConfirmationType where
  values := ConfirmationType.defined
  name := ConfirmationType.name
  ofName := ConfirmationType.ofName
  synonyms := [
    ("clicked", .click), ("dismissed", .dismiss), ("viewed", .view), ("impression", .view),
    ("serve", .served), ("land", .landed), ("inappropriate", .flag), ("flagged", .flag),
    ("save", .bookmark), ("saved", .bookmark), ("like", .upvote), ("liked", .upvote),
    ("dislike", .downvote), ("disliked", .downvote), ("converted", .conversion),
    ("play", .mediaPlay)]

end AdLedger.Names
