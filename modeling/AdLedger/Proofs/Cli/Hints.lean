import AdLedger.Proofs.Cli.Recording
import AdLedger.Proofs.Names.Vocabulary
import Mathlib.Data.List.Infix

/-!
# Hints that fit

The hint of an argument fault is found by looking for three phrases in its message, which repeats
words as they were typed. A phrase that occurs in a message was in the message's own words or in the
repeated ones, never partly in both (`Topic.isIn_append_iff_of_front`,
`Topic.isIn_append_iff_of_back`), so the hint of every fault is known (`topicOf_confirmationType`,
`topicOf_targetUrl`). The hint of a rejected draft fits its fault if and only if the repeated words
have none of the phrases that are looked for, and that of rejected settings if and only if the batch
size is not too great (`hints_fit_iff`).
-/

namespace AdLedger

open Time (Instant)

/-! ## What hints are about -/

/-- What the hint of an argument fault can be about, in the order in which it is looked for. -/
inductive Topic where
  | adTypes
  | confirmationTypes
  | batchSize
  deriving DecidableEq

namespace Topic

/-- The words by which the topic is known. -/
def phrase : Topic → String
  | adTypes => "ad type"
  | confirmationTypes => "confirmation type"
  | batchSize => "batch_size"

/-- Names in a row. -/
def listed (names : List String) : String := ", ".intercalate names

theorem isInfix_listed {name : String} {names : List String} (h : name ∈ names) :
    name.toList <:+: (listed names).toList := by
  rw [listed, String.toList_intercalate]
  induction names with
  | nil => cases h
  | cons n names ih =>
    cases names with
    | nil =>
      obtain rfl := List.mem_singleton.1 h
      simp
    | cons m names =>
      rw [List.map_cons, List.map_cons, List.intercalate_cons_cons]
      obtain rfl | h := List.mem_cons.1 h
      · exact ((List.prefix_append _ _).trans (List.prefix_append _ _)).isInfix
      · exact (ih h).trans (List.suffix_append _ _).isInfix

def hint : Topic → String
  | adTypes => "Valid ad types: " ++ listed (AdType.defined.map AdType.name) ++
      ". Synonyms: notification, ntp, promoted, inline, search"
  | confirmationTypes => "Valid confirmation types: " ++
      listed (ConfirmationType.defined.map ConfirmationType.name) ++
      ". Synonyms: clicked→click, viewed→view, dismissed→dismiss"
  | batchSize => "Batch size must be at least 1"

/-- The text has the words by which the topic is known. -/
def IsIn (topic : Topic) (text : String) : Prop := topic.phrase.toList <:+: text.toList

instance (topic : Topic) (text : String) : Decidable (topic.IsIn text) :=
  inferInstanceAs (Decidable (_ <:+: _))

/-- The first topic whose words the text has. -/
def of? (text : String) : Option Topic :=
  if adTypes.IsIn text then some adTypes
  else if confirmationTypes.IsIn text then some confirmationTypes
  else if batchSize.IsIn text then some batchSize
  else none

variable {topic : Topic} {front back : String}

/-- Words that do not begin at the end of one text are in the one or in the other. -/
theorem isIn_append_iff_of_front
    (h : ∀ l ∈ topic.phrase.toList.inits, l <:+ front.toList → l = []) :
    topic.IsIn (front ++ back) ↔ topic.IsIn front ∨ topic.IsIn back := by
  unfold IsIn
  rw [String.toList_append, List.infix_append_iff]
  refine or_congr_right (or_iff_left_of_imp ?_)
  rintro ⟨l, rest, heq, hfront, hback⟩
  obtain rfl := h l ((List.mem_inits _ _).2 ⟨rest, heq.symm⟩) hfront
  exact heq ▸ hback.isInfix

/-- Words that do not end at the beginning of one text are in the one or in the other. -/
theorem isIn_append_iff_of_back
    (h : ∀ l ∈ topic.phrase.toList.tails, l <+: back.toList → l = []) :
    topic.IsIn (front ++ back) ↔ topic.IsIn front ∨ topic.IsIn back := by
  unfold IsIn
  rw [String.toList_append, List.infix_append_iff, ← or_assoc]
  refine or_iff_left_of_imp ?_
  rintro ⟨rest, l, heq, hfront, hback⟩
  obtain rfl := h l ((List.mem_tails _ _).2 ⟨rest, heq.symm⟩) hback
  rw [List.append_nil] at heq
  exact .inl (heq ▸ hfront.isInfix)

theorem of?_eq_none_iff {text : String} : of? text = none ↔ ∀ topic : Topic, ¬ topic.IsIn text := by
  unfold of?
  constructor
  · intro h topic
    cases topic <;> grind
  · intro h
    simp [h]

end Topic

namespace ArgumentFault

theorem hint_eq (fault : ArgumentFault) :
    fault.hint = (Topic.of? fault.message).map Topic.hint := by
  have mentions (topic : Topic) : Text.occursIn topic.phrase.toList fault.message.toList = true ↔
      topic.IsIn fault.message := Text.occursIn_iff_isInfix
  refine (if_congr (mentions .adTypes) rfl (if_congr (mentions .confirmationTypes) rfl
    (if_congr (mentions .batchSize) rfl rfl))).trans ?_
  unfold Topic.of?
  repeat' split
  · exact congrArg some (by decide +kernel)
  · exact congrArg some (by decide +kernel)
  all_goals rfl

/-- What comes before a word in the message about it. -/
def opening (what : String) : String := s!"Invalid {what}: "

/-- What follows a word in the message about it. -/
def suggestionText (suggestion : Option String) : String :=
  suggestion.elim "" fun name => s!" (did you mean '{name}'?)"

theorem unknownText_eq (what word : String) (suggestion : Option String) :
    unknownText what word suggestion = opening what ++ (word ++ suggestionText suggestion) := by
  cases suggestion with
  | none => exact congrArg (opening what ++ ·) String.append_empty.symm
  | some name =>
    simp only [unknownText, opening, suggestionText, Option.elim_some, String.append_assoc]
    rfl

/-- The words that a message about a word begins with are in it. -/
theorem isIn_unknownText {topic : Topic} {what : String} (h : topic.IsIn (opening what))
    (word : String) (suggestion : Option String) :
    topic.IsIn (unknownText what word suggestion) := by
  rw [unknownText_eq, Topic.IsIn, String.toList_append]
  exact h.trans (List.prefix_append _ _).isInfix

theorem topicOf_adType (word : Names.Unknown AdType) :
    Topic.of? (adType word).message = some .adTypes :=
  if_pos (isIn_unknownText (by decide) word.word _)

/-- The message about a confirmation type is about ad types if the word that was typed is. -/
theorem topicOf_confirmationType (word : Names.Unknown ConfirmationType) :
    Topic.of? (confirmationType word).message =
      if Topic.adTypes.IsIn word.word then some .adTypes else some .confirmationTypes := by
  have hadTypes : Topic.adTypes.IsIn (confirmationType word).message ↔
      Topic.adTypes.IsIn word.word := by
    have hmessage : (confirmationType word).message = opening "confirmation type" ++
        (word.word ++ suggestionText (word.suggestion.map ConfirmationType.name)) :=
      unknownText_eq ..
    have hback : ∀ suggestion : Option ConfirmationType,
        let back := suggestionText (suggestion.map ConfirmationType.name)
        (∀ l ∈ Topic.adTypes.phrase.toList.tails, l <+: back.toList → l = []) ∧
          ¬ Topic.adTypes.IsIn back := by
      rintro (_ | c)
      · decide
      · cases c <;> decide
    obtain ⟨hapart, hnot⟩ := hback word.suggestion
    rw [hmessage, Topic.isIn_append_iff_of_front (by decide), or_iff_right (by decide),
      Topic.isIn_append_iff_of_back hapart, or_iff_left hnot]
  exact if_congr hadTypes rfl (if_pos (isIn_unknownText (by decide) word.word _))

/-- The message about a target is about what the text that was typed is about. -/
theorem topicOf_targetUrl (text : String) :
    Topic.of? (targetUrl text).message = Topic.of? text := by
  have hfront : ∀ topic : Topic,
      (∀ l ∈ topic.phrase.toList.inits, l <:+ "Invalid target URL: ".toList → l = []) ∧
        ¬ topic.IsIn "Invalid target URL: " := by
    intro topic
    cases topic <;> decide
  have hiff : ∀ topic : Topic, topic.IsIn (targetUrl text).message ↔ topic.IsIn text := by
    intro topic
    have hmessage : (targetUrl text).message = "Invalid target URL: " ++ text := rfl
    rw [hmessage, Topic.isIn_append_iff_of_front (hfront topic).1, or_iff_right (hfront topic).2]
  unfold Topic.of?
  exact if_congr (hiff _) rfl (if_congr (hiff _) rfl (if_congr (hiff _) rfl rfl))

end ArgumentFault

/-- The hint has each of the names. -/
def Lists (hint : Option String) (names : List String) : Prop :=
  ∃ text ∈ hint, ∀ name ∈ names, name.toList <:+: text.toList

theorem lists_of_listed {front back : String} {names : List String} :
    Lists (some (front ++ Topic.listed names ++ back)) names := by
  refine ⟨_, rfl, fun name h => ?_⟩
  rw [String.toList_append, String.toList_append]
  exact (Topic.isInfix_listed h).trans
    ((List.suffix_append _ _).isInfix.trans (List.prefix_append _ _).isInfix)

/-- Names of which one is in no other hint are had by the hint of their own topic only. -/
theorem lists_iff_of_apart {topic : Option Topic} {named : Topic} {name : String}
    {names : List String} (hlisted : Lists (some named.hint) names) (hmem : name ∈ names)
    (hapart : ∀ other : Topic, name.toList <:+: other.hint.toList → other = named) :
    Lists (topic.map Topic.hint) names ↔ topic = some named := by
  constructor
  · intro ⟨text, htext, hall⟩
    obtain ⟨other, rfl, rfl⟩ := Option.map_eq_some_iff.1 htext
    exact congrArg some (hapart other (hall _ hmem))
  · rintro rfl
    exact hlisted

theorem lists_adTypes_iff {topic : Option Topic} :
    Lists (topic.map Topic.hint) (AdType.defined.map AdType.name) ↔ topic = some .adTypes := by
  have hmem : "ad_notification" ∈ AdType.defined.map AdType.name := by decide
  refine lists_iff_of_apart lists_of_listed hmem fun other hname => ?_
  cases other with
  | adTypes => rfl
  | confirmationTypes => exact absurd hname (by decide +kernel)
  | batchSize => exact absurd hname (by decide +kernel)

theorem lists_confirmationTypes_iff {topic : Option Topic} :
    Lists (topic.map Topic.hint) (ConfirmationType.defined.map ConfirmationType.name) ↔
      topic = some .confirmationTypes := by
  have hmem : "dismiss" ∈ ConfirmationType.defined.map ConfirmationType.name := by decide
  refine lists_iff_of_apart lists_of_listed hmem fun other hname => ?_
  cases other with
  | confirmationTypes => rfl
  | adTypes => exact absurd hname (by decide +kernel)
  | batchSize => exact absurd hname (by decide +kernel)

namespace Cli

variable {draft : Draft} {now : Instant} {freshId : String} {fault : ArgumentFault}

/-! ## Rejected drafts -/

namespace Draft

/-- Why a draft is rejected: the first of four things that can be wrong with it. -/
inductive Rejected (draft : Draft) : ArgumentFault → Prop where
  | adType {word : Names.Unknown AdType} (h : Names.adTypes.read draft.adType = .error word) :
    Rejected draft (.adType word)
  | confirmationType {adType : AdType} {word : Names.Unknown ConfirmationType}
    (hadType : Names.adTypes.read draft.adType = .ok adType)
    (h : Names.confirmationTypes.read draft.confirmationType = .error word) :
    Rejected draft (.confirmationType word)
  | targetUrl {adType : AdType} {confirmationType : ConfirmationType}
    (hadType : Names.adTypes.read draft.adType = .ok adType)
    (hconfirmationType :
      Names.confirmationTypes.read draft.confirmationType = .ok confirmationType)
    (h : target draft.targetUrl = .error (.targetUrl draft.targetUrl)) :
    Rejected draft (.targetUrl draft.targetUrl)
  | identifier {adType : AdType} {confirmationType : ConfirmationType} {url : Url}
    (hadType : Names.adTypes.read draft.adType = .ok adType)
    (hconfirmationType :
      Names.confirmationTypes.read draft.confirmationType = .ok confirmationType)
    (h : target draft.targetUrl = .ok url) :
    Rejected draft .emptyIdentifier

theorem rejected_of_toItem (h : draft.toItem now freshId = .error fault) :
    draft.Rejected fault := by
  unfold toItem understood at h
  cases hadType : Names.adTypes.read draft.adType with
  | error word =>
    rw [hadType] at h
    cases h
    exact .adType hadType
  | ok adType =>
    cases hconfirmationType : Names.confirmationTypes.read draft.confirmationType with
    | error word =>
      rw [hadType, hconfirmationType] at h
      cases h
      exact .confirmationType hadType hconfirmationType
    | ok confirmationType =>
      rw [hadType, hconfirmationType] at h
      cases htarget : target draft.targetUrl with
      | error f =>
        have hf : f = .targetUrl draft.targetUrl := by
          unfold target at htarget
          split at htarget <;> cases htarget
          rfl
        subst hf
        rw [htarget] at h
        cases h
        exact .targetUrl hadType hconfirmationType htarget
      | ok url =>
        rw [htarget] at h
        simp only [Except.mapError, bind, Except.bind] at h
        split at h <;> cases h
        exact .identifier hadType hconfirmationType htarget

/-- The hint fits what is wrong with the draft. It lists the ad types if the draft's is not one, the
confirmation types if the draft's is not one but its ad type is, and nothing is said if both are
good, so that the target or an identifier is at fault. -/
structure Fits (draft : Draft) (hint : Option String) : Prop where
  adTypes : Lists hint (AdType.defined.map AdType.name) ↔
    ∃ word, Names.adTypes.read draft.adType = .error word
  confirmationTypes : Lists hint (ConfirmationType.defined.map ConfirmationType.name) ↔
    (∃ adType, Names.adTypes.read draft.adType = .ok adType) ∧
      ∃ word, Names.confirmationTypes.read draft.confirmationType = .error word
  otherwise : (∃ adType, Names.adTypes.read draft.adType = .ok adType) →
    (∃ confirmationType,
      Names.confirmationTypes.read draft.confirmationType = .ok confirmationType) → hint = none

/-- The words that the message about the draft repeats have none of those by which a topic before
its own is known. -/
structure Unmistakable (draft : Draft) : Prop where
  confirmationType : ∀ adType word, Names.adTypes.read draft.adType = .ok adType →
    Names.confirmationTypes.read draft.confirmationType = .error word →
    ¬ Topic.adTypes.IsIn draft.confirmationType
  targetUrl : ∀ adType confirmationType fault, Names.adTypes.read draft.adType = .ok adType →
    Names.confirmationTypes.read draft.confirmationType = .ok confirmationType →
    target draft.targetUrl = .error fault → ∀ topic : Topic, ¬ topic.IsIn draft.targetUrl

/-- Whether the hint fits is a question of what it is about. -/
theorem fits_topic_iff {topic : Option Topic} : draft.Fits (topic.map Topic.hint) ↔
    (topic = some .adTypes ↔ ∃ word, Names.adTypes.read draft.adType = .error word) ∧
    (topic = some .confirmationTypes ↔ (∃ adType, Names.adTypes.read draft.adType = .ok adType) ∧
      ∃ word, Names.confirmationTypes.read draft.confirmationType = .error word) ∧
    ((∃ adType, Names.adTypes.read draft.adType = .ok adType) →
      (∃ confirmationType,
        Names.confirmationTypes.read draft.confirmationType = .ok confirmationType) →
      topic = none) := by
  rw [← lists_adTypes_iff, ← lists_confirmationTypes_iff, ← Option.map_eq_none_iff]
  exact ⟨fun ⟨h, h', h''⟩ => ⟨h, h', h''⟩, fun ⟨h, h', h''⟩ => ⟨h, h', h''⟩⟩

theorem Rejected.fits_iff (h : draft.Rejected fault) :
    draft.Fits fault.hint ↔ draft.Unmistakable := by
  rw [ArgumentFault.hint_eq, fits_topic_iff]
  cases h with
  | adType h =>
    rw [ArgumentFault.topicOf_adType]
    exact iff_of_true (by simp [h])
      { confirmationType := by simp [h]
        targetUrl := by simp [h] }
  | @confirmationType adType word hadType h =>
    have hword : word.word = draft.confirmationType := by
      rw [Names.Vocabulary.read_eq_error h]
    rw [ArgumentFault.topicOf_confirmationType, hword]
    constructor
    · intro ⟨hadTypes, _, _⟩
      exact
        { confirmationType := fun _ _ _ _ hin => by simp [if_pos hin, hadType] at hadTypes
          targetUrl := by simp [h] }
    · intro hu
      rw [if_neg (hu.confirmationType _ _ hadType h)]
      simp [hadType, h]
  | targetUrl hadType hconfirmationType h =>
    rw [ArgumentFault.topicOf_targetUrl]
    constructor
    · intro ⟨_, _, hnone⟩
      exact
        { confirmationType := by simp [hconfirmationType]
          targetUrl := fun _ _ _ _ _ _ =>
            Topic.of?_eq_none_iff.1 (hnone ⟨_, hadType⟩ ⟨_, hconfirmationType⟩) }
    · intro hu
      rw [Topic.of?_eq_none_iff.2 (hu.targetUrl _ _ _ hadType hconfirmationType h)]
      simp [hadType, hconfirmationType]
  | identifier hadType hconfirmationType h =>
    have hnone : Topic.of? ArgumentFault.emptyIdentifier.message = none := by decide
    rw [hnone]
    exact iff_of_true (by simp [hadType, hconfirmationType])
      { confirmationType := by simp [hconfirmationType]
        targetUrl := by simp [h] }

end Draft

/-! ## Rejected settings -/

/-- The hint about the batch size is given for every batch size that is rejected. -/
theorem hint_of_fault? {s : Settings} (h : s.fault? = some fault) :
    fault.hint = some Topic.batchSize.hint ↔
      s.batchSize = 0 ∨ Settings.maxBatchSize < s.batchSize := by
  unfold Settings.fault? at h
  split at h
  next hzero =>
    cases h
    exact iff_of_true (by decide) (.inl hzero)
  next hzero =>
    split at h
    next habove =>
      cases h
      exact iff_of_true (by decide) (.inr habove)
    next habove =>
      split at h <;> cases h
      exact iff_of_false (by decide) (by simp [hzero, habove])

/-- The hint of a rejected draft fits if and only if the words of it that are repeated are
unmistakable, and that of rejected settings if and only if the batch size is not too great. -/
theorem hints_fit_iff (draft : Draft) (now : Instant) (freshId : String) (s : Settings) :
    (∀ fault, draft.toItem now freshId = .error fault →
      (draft.Fits (Failure.argument fault).hint ↔ draft.Unmistakable)) ∧
    ∀ failure, s.validate = .error failure →
      ((failure.hint = some "Batch size must be at least 1" ↔ s.batchSize = 0) ↔
        s.batchSize ≤ Settings.maxBatchSize) := by
  refine ⟨fun fault h => (Draft.rejected_of_toItem h).fits_iff, fun failure h => ?_⟩
  unfold Settings.validate at h
  split at h
  next fault hfault =>
    cases h
    refine (iff_congr (hint_of_fault? hfault) .rfl).trans ?_
    simp only [Settings.maxBatchSize_eq]
    omega
  next => cases h

/-- A confirmation type with a letter missing, and a batch size of 0. -/
theorem hints_fit_vew :
    let draft := draftOf "vew" .epoch "https://brave.com/"
    let fault := ArgumentFault.confirmationType ⟨"vew", some .view⟩
    let failure := Failure.argument .zeroBatchSize
    draft.toItem .epoch "" = .error fault ∧ draft.Fits (Failure.argument fault).hint ∧
    Settings.validate ⟨30, 0⟩ = .error failure ∧
      failure.hint = some "Batch size must be at least 1" := by
  intro draft fault failure
  have hread : Names.confirmationTypes.read "vew" = .error ⟨"vew", some .view⟩ := by cbv
  have hrejected : draft.toItem .epoch "" = .error fault := by cbv
  have hunmistakable : draft.Unmistakable :=
    { confirmationType := fun _ _ _ _ => by decide
      targetUrl := fun _ _ _ _ hok => by simp [draft, draftOf, hread] at hok }
  obtain ⟨hdrafts, hsettings⟩ := hints_fit_iff draft .epoch "" ⟨30, 0⟩
  have hfault : Settings.validate ⟨30, 0⟩ = .error failure := rfl
  exact ⟨hrejected, (hdrafts fault hrejected).2 hunmistakable, hfault,
    ((hsettings failure hfault).2 (by decide)).2 rfl⟩

/-- A target and a confirmation type in words about ad types, and a batch size that is too great. -/
theorem hints_of_other_topics :
    let badTarget := draftOf "viewed" .epoch "ad type"
    let badType := draftOf "ad type" .epoch "https://brave.com/"
    (∃ fault, badTarget.toItem .epoch "" = .error fault ∧
      ¬ badTarget.Fits (Failure.argument fault).hint) ∧
    (∃ fault, badType.toItem .epoch "" = .error fault ∧
      ¬ badType.Fits (Failure.argument fault).hint) ∧
    ∃ failure, Settings.validate ⟨30, 2731⟩ = .error failure ∧
      failure.hint = some "Batch size must be at least 1" := by
  intro badTarget badType
  have hadType : Names.adTypes.read "notification" = .ok .notification := by cbv
  have hviewed : Names.confirmationTypes.read "viewed" = .ok .view := by cbv
  have htarget : Draft.target "ad type" = .error (.targetUrl "ad type") := by cbv
  have hread : Names.confirmationTypes.read "ad type" = .error ⟨"ad type", none⟩ := by cbv
  have hbadTarget : badTarget.Rejected (.targetUrl "ad type") :=
    .targetUrl hadType hviewed htarget
  have hbadType : badType.Rejected (.confirmationType ⟨"ad type", none⟩) :=
    .confirmationType hadType hread
  refine ⟨⟨_, by cbv, fun hfits => ?_⟩, ⟨_, by cbv, fun hfits => ?_⟩, _, rfl, by decide⟩
  · exact (hbadTarget.fits_iff.1 hfits).targetUrl _ _ _ hadType hviewed htarget .adTypes (by decide)
  · exact (hbadType.fits_iff.1 hfits).confirmationType _ _ hadType hread (by decide)

end Cli
end AdLedger
