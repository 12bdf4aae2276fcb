import AdLedger.Failure
import AdLedger.Store.Columns

/-!
# Settings

How long events are kept and how many rows one insert may have. Settings are kept as they were
given; whether they are usable is a question of its own, and the batch size in effect is always
usable.
-/

namespace AdLedger

open Time (Instant)

structure Settings where
  /-- Events older than this many days are forgotten. -/
  retentionDays : Nat
  /-- The most rows of one insert. -/
  batchSize : Nat
  deriving DecidableEq

namespace Settings

def defaultRetentionDays : Nat := 30

def defaultBatchSize : Nat := 50

def maxRetentionDays : Nat := 36500

/-- The most rows whose values are together no more than the parameters one command may have. -/
def maxBatchSize : Nat := Sql.Statement.mostParameters / Store.columns.length

theorem maxBatchSize_eq : maxBatchSize = 2730 := rfl

def standard : Settings := ⟨defaultRetentionDays, defaultBatchSize⟩

instance : Inhabited Settings := ⟨standard⟩

/-- What makes settings unusable, the batch size first. -/
def fault? (s : Settings) : Option ArgumentFault :=
  if s.batchSize = 0 then some .zeroBatchSize
  else if maxBatchSize < s.batchSize then some (.batchSizeAbove maxBatchSize)
  else if maxRetentionDays < s.retentionDays then some (.retentionAbove maxRetentionDays)
  else none

/-- Settings that can be used. -/
def Usable (s : Settings) : Prop :=
  0 < s.batchSize ∧ s.batchSize ≤ maxBatchSize ∧ s.retentionDays ≤ maxRetentionDays

instance (s : Settings) : Decidable s.Usable := inferInstanceAs (Decidable (_ ∧ _ ∧ _))

theorem fault?_eq_none_iff {s : Settings} : s.fault? = none ↔ s.Usable := by
  unfold fault? Usable
  split
  · simp; omega
  · split
    · simp; omega
    · split <;> simp <;> omega

/-- Fails for settings that cannot be used. -/
def validate (s : Settings) : Except Failure Unit :=
  match s.fault? with
  | some fault => .error (.argument fault)
  | none => .ok ()

/-- The batch size in effect: the usual one for 0, and never more than the greatest. -/
def effectiveBatchSize (s : Settings) : Nat :=
  if s.batchSize = 0 then defaultBatchSize
  else if maxBatchSize < s.batchSize then maxBatchSize
  else s.batchSize

theorem effectiveBatchSize_pos (s : Settings) : 0 < s.effectiveBatchSize := by
  unfold effectiveBatchSize
  split
  · decide
  · split
    · decide
    · omega

theorem effectiveBatchSize_le (s : Settings) : s.effectiveBatchSize ≤ maxBatchSize := by
  unfold effectiveBatchSize
  split
  · decide
  · split <;> omega

/-- Usable settings are in effect as they are. -/
theorem Usable.effectiveBatchSize_eq {s : Settings} (h : s.Usable) :
    s.effectiveBatchSize = s.batchSize := by
  obtain ⟨pos, le, -⟩ := h
  unfold effectiveBatchSize
  rw [if_neg (by omega), if_neg (by omega)]

def retentionSeconds (s : Settings) : Nat := s.retentionDays * Instant.daySeconds

/-- The instant up to which events are forgotten. -/
def cutoff (s : Settings) (now : Instant) : Except Failure Instant :=
  match now.daysBefore? s.retentionDays with
  | some t => .ok t
  | none => .error (.settings (.retentionOutOfRange s.retentionDays))

/-! ## As documents -/

/-- The settings under their names. -/
def members (s : Settings) : List (String × Json) :=
  [("retention_period_days", .ofNat s.retentionDays), ("batch_size", .ofNat s.batchSize)]

/-- The text that is kept in a settings file. -/
def document (s : Settings) : String := Json.lines s.members

/-- A number of at most this many bits, or the default for none. -/
def number? (bits default : Nat) : Option Json → Option Nat
  | none => some default
  | some j => j.nat?.filter (· < Nat.pow 2 bits)

/-- Settings from a document; what it does not say is as usual. -/
def ofJson? (j : Json) : Option Settings := do
  match ← j.fields? ["retention_period_days", "batch_size"] with
  | [retentionDays, batchSize] =>
    return ⟨← number? 32 defaultRetentionDays retentionDays,
      ← number? 64 defaultBatchSize batchSize⟩
  | _ => none

end Settings
end AdLedger
