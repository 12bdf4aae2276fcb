import AdLedger.Json.Document
import AdLedger.Names.Vocabulary
import AdLedger.Text.Search
import AdLedger.Time.Printer

/-!
# Failures

Why an operation of the ledger did not succeed, with the message for people, a code and an exit code
for programs, whether to try again can help, and a hint.
-/

namespace AdLedger

open Time (Instant)

/-- What is wrong with something that was given. -/
inductive ArgumentFault where
  | adType (word : Names.Unknown AdType)
  | confirmationType (word : Names.Unknown ConfirmationType)
  | targetUrl (text : String)
  | emptyIdentifier
  | tooManyDays (days : Nat)
  | invertedRange (start finish : Instant)
  | notItems (file reason : String)
  | notCandidates (file reason : String)
  | zeroBatchSize
  | batchSizeAbove (most : Nat)
  | retentionAbove (most : Nat)
  | other (text : String)

/-- What is wrong with the settings or where they are kept. -/
inductive SettingsFault where
  | unreadable (reason : String)
  | malformed (reason : String)
  | noDirectory (reason : String)
  | unwritable (reason : String)
  | retentionOutOfRange (days : Nat)
  | databaseNowhere
  | settingsNowhere
  | other (text : String)

/-- Why an operation did not succeed. -/
inductive Failure where
  | notInitialized
  | alreadyInitialized (path : String)
  | database (reason : String)
  | transaction (reason : String)
  | file (reason : String)
  | document (reason : String)
  | argument (fault : ArgumentFault)
  | settings (fault : SettingsFault)
  | other (text : String)

/-- The kinds of failures that programs tell apart. -/
inductive FailureKind where
  | notInitialized
  | alreadyInitialized
  | database
  | transaction
  | argument
  | settings
  | file
  | document
  | internal
  deriving DecidableEq

namespace ArgumentFault

/-- A word that is not understood, with the nearest name if there is one. -/
def unknownText (what word : String) : Option String → String
  | some name => s!"Invalid {what}: {word} (did you mean '{name}'?)"
  | none => s!"Invalid {what}: {word}"

def message : ArgumentFault → String
  | adType u => unknownText "ad type" u.word (u.suggestion.map AdType.name)
  | confirmationType u =>
    unknownText "confirmation type" u.word (u.suggestion.map ConfirmationType.name)
  | targetUrl text => s!"Invalid target URL: {text}"
  | emptyIdentifier => "Identifiers must not be empty"
  | tooManyDays days => s!"--days {Text.natural days} reaches beyond the earliest date"
  | invertedRange start finish =>
    s!"Range start {start.offsetText} is after range end {finish.offsetText}"
  | notItems file reason => s!"{file} is not a JSON array of ad history items: {reason}"
  | notCandidates file reason => s!"{file} is not a JSON array of creative ads: {reason}"
  | zeroBatchSize => "batch_size must be greater than 0"
  | batchSizeAbove most => s!"batch_size must be at most {Text.natural most}"
  | retentionAbove most => s!"retention_period_days must be at most {Text.natural most}"
  | other text => text

/-- What may help, told by the words of the message. -/
def hint (f : ArgumentFault) : Option String :=
  let mentions (words : String) := Text.occursIn words.toList f.message.toList
  if mentions "ad type" then
    some <| "Valid ad types: ad_notification, new_tab_page_ad, promoted_content_ad, " ++
      "inline_content_ad, search_result_ad. Synonyms: notification, ntp, promoted, inline, search"
  else if mentions "confirmation type" then
    some <| "Valid confirmation types: click, dismiss, view, served, landed, flag, bookmark, " ++
      "upvote, downvote, conversion, media_play, media_25, media_100. " ++
      "Synonyms: clicked→click, viewed→view, dismissed→dismiss"
  else if mentions "batch_size" then some "Batch size must be at least 1"
  else none

end ArgumentFault

namespace SettingsFault

def message : SettingsFault → String
  | unreadable reason => s!"Failed to read config file: {reason}"
  | malformed reason => s!"Failed to parse config file: {reason}"
  | noDirectory reason => s!"Failed to create config directory: {reason}"
  | unwritable reason => s!"Failed to write config file: {reason}"
  | retentionOutOfRange days => s!"retention_period_days {Text.natural days} is out of range"
  | databaseNowhere => "Could not determine database location"
  | settingsNowhere => "Could not determine config location"
  | other text => text

end SettingsFault

namespace FailureKind

/-- The code by which programs know the kind. -/
def code : FailureKind → String
  | notInitialized => "NOT_INITIALIZED"
  | alreadyInitialized => "ALREADY_INITIALIZED"
  | database => "DATABASE_ERROR"
  | transaction => "TRANSACTION_FAILED"
  | argument => "INVALID_ARGUMENT"
  | settings => "CONFIG_ERROR"
  | file => "IO_ERROR"
  | document => "JSON_ERROR"
  | internal => "INTERNAL_ERROR"

/-- The exit code of a program that ends with a failure of the kind. -/
def exitCode : FailureKind → Nat
  | internal => 1
  | notInitialized | alreadyInitialized | database | transaction => 2
  | argument => 4
  | settings => 7
  | file | document => 8

/-- Whether another attempt can succeed, perhaps with other arguments. -/
def retryable : FailureKind → Bool
  | database | transaction | argument => true
  | _ => false

end FailureKind

namespace Failure

def kind : Failure → FailureKind
  | notInitialized => .notInitialized
  | alreadyInitialized _ => .alreadyInitialized
  | database _ => .database
  | transaction _ => .transaction
  | file _ => .file
  | document _ => .document
  | argument _ => .argument
  | settings _ => .settings
  | other _ => .internal

def message : Failure → String
  | notInitialized => "Not initialized: run `adh init` first"
  | alreadyInitialized path => s!"Already initialized at {path}"
  | database reason => s!"Database error: {reason}"
  | transaction reason => s!"Transaction failed: {reason}"
  | file reason => s!"IO error: {reason}"
  | document reason => s!"JSON error: {reason}"
  | argument fault => s!"Invalid argument: {fault.message}"
  | settings fault => s!"Configuration error: {fault.message}"
  | other text => text

/-- What may help, where there is something. -/
def hint : Failure → Option String
  | notInitialized => some "Run `adh init` to create the database"
  | alreadyInitialized path =>
    some s!"Database already exists at {path}. Use `--force` to reinitialize."
  | argument fault => fault.hint
  | transaction _ => some "The transaction was rolled back; no rows were changed."
  | _ => none

def toJson (f : Failure) : Json :=
  let hint := f.hint.toList.map fun text => ("hint", Json.ofString text)
  .record [("error", .record ([
    ("code", .ofString f.kind.code),
    ("message", .ofString f.message),
    ("retryable", .bool f.kind.retryable),
    ("exit_code", .ofNat f.kind.exitCode)] ++ hint))]

end Failure
end AdLedger
