/-!
# Confirmation types

What a user or the system did with an ad. Three confirmation types carry a placement rank, by which
one of several events of a placement is chosen: a click before a dismissal before a view.
-/

namespace AdLedger

/-- The interaction that an ad event records. -/
inductive ConfirmationType where
  | undefined
  | click
  | dismiss
  | view
  | served
  | landed
  | flag
  | bookmark
  | upvote
  | downvote
  | conversion
  | mediaPlay
  | mediaQuarter
  | mediaComplete
  deriving DecidableEq, Inhabited

namespace ConfirmationType

/-- The confirmation types an event can have, all but `undefined`. -/
def defined : List ConfirmationType :=
  [click, dismiss, view, served, landed, flag, bookmark, upvote, downvote, conversion, mediaPlay,
    mediaQuarter, mediaComplete]

def name : ConfirmationType → String
  | undefined => "undefined"
  | click => "click"
  | dismiss => "dismiss"
  | view => "view"
  | served => "served"
  | landed => "landed"
  | flag => "flag"
  | bookmark => "bookmark"
  | upvote => "upvote"
  | downvote => "downvote"
  | conversion => "conversion"
  | mediaPlay => "media_play"
  | mediaQuarter => "media_25"
  | mediaComplete => "media_100"

/-- The confirmation type with this stored name; `undefined` where there is none. -/
def ofName (s : String) : ConfirmationType := (defined.find? (·.name = s)).getD undefined

def isDefined (t : ConfirmationType) : Bool := t ≠ undefined

/-- The confirmation types that can win a placement, best first, with their ranks. -/
def ranked : List (ConfirmationType × Nat) := [(click, 1), (dismiss, 2), (view, 3)]

/-- The placement rank; the lower the better, and 0 for an interaction that never wins. -/
def rank (t : ConfirmationType) : Nat := (ranked.lookup t).getD 0

@[simp] theorem ofName_name (t : ConfirmationType) : ofName t.name = t := by cases t <;> decide

theorem name_inj {t u : ConfirmationType} : t.name = u.name ↔ t = u := by
  constructor
  · intro h
    rw [← ofName_name t, h, ofName_name]
  · rintro rfl
    rfl

/-- A text that names a confirmation type is its name. -/
theorem name_ofName {s : String} (h : ofName s ≠ undefined) : (ofName s).name = s := by
  unfold ofName at h ⊢
  cases hf : defined.find? (·.name = s) with
  | none => simp [hf] at h
  | some t => simpa using List.find?_some hf

end ConfirmationType
end AdLedger
