import AdLedger.Text.Digits

/-!
# Observer registries

The observers that are told of events, in the order in which they were added. A registry does not
keep its observers alive: one that has been dropped is told nothing and not counted, and its entry
goes when an observer is next added or removed. `Registry.recipients` is what a registry means.
-/

namespace AdLedger

/-- Entries in the order of their addition, some perhaps of observers that are gone, and the
observers that have been dropped. -/
structure Registry (ι : Type) where
  entries : List ι
  dropped : List ι

namespace Registry

variable {ι : Type} [DecidableEq ι]

def empty : Registry ι := ⟨[], []⟩

def isAlive (r : Registry ι) (x : ι) : Bool := !r.dropped.contains x

/-- The observers that an event is delivered to, in the order of delivery. -/
def recipients (r : Registry ι) : List ι := r.entries.filter r.isAlive

/-- Adds an observer at the end, unless it has an entry. -/
def add (r : Registry ι) (x : ι) : Registry ι :=
  let entries := r.recipients
  { r with entries := if entries.contains x then entries else entries ++ [x] }

/-- Takes away the entry of an observer. -/
def remove (r : Registry ι) (x : ι) : Registry ι :=
  { r with entries := r.recipients.filter (· ≠ x) }

/-- Records that an observer is gone. Its entry stays for the time being. -/
def drop (r : Registry ι) (x : ι) : Registry ι := { r with dropped := x :: r.dropped }

def count (r : Registry ι) : Nat := r.recipients.length

/-- The deliveries that an event makes, in order. -/
def notify {ε : Type} (r : Registry ι) (event : ε) : List (ι × ε) := r.recipients.map (·, event)

/-- A text that shows how many observers there are. -/
def description (r : Registry ι) : String :=
  "AdsClientNotifier \x7b observers: " ++ Text.natural r.count ++ " \x7d"

@[simp] theorem recipients_empty : (empty : Registry ι).recipients = [] := rfl

/-- An added observer comes last, unless it is told of events already or has been dropped. -/
theorem recipients_add (r : Registry ι) (x : ι) :
    (r.add x).recipients =
      if x ∈ r.recipients ∨ r.isAlive x = false then r.recipients else r.recipients ++ [x] := by
  have alive : (r.add x).isAlive = r.isAlive := rfl
  unfold recipients at *
  rw [alive]
  by_cases h : x ∈ r.entries.filter r.isAlive
  · simp [add, recipients, h, List.filter_filter]
  · cases ha : r.isAlive x <;> simp [add, recipients, h, ha, List.filter_filter]

/-- A removed observer is told nothing any more, and the others keep their order. -/
theorem recipients_remove (r : Registry ι) (x : ι) :
    (r.remove x).recipients = r.recipients.filter (· ≠ x) := by
  have alive : (r.remove x).isAlive = r.isAlive := rfl
  rw [recipients, alive]
  simp only [remove, recipients, List.filter_filter]
  congr 1
  funext y
  cases r.isAlive y <;> simp

/-- A dropped observer is told nothing any more, and the others keep their order. -/
theorem recipients_drop (r : Registry ι) (x : ι) :
    (r.drop x).recipients = r.recipients.filter (· ≠ x) := by
  simp only [drop, recipients, List.filter_filter]
  congr 1
  funext y
  by_cases h : y = x <;> simp [isAlive, h]

end Registry
end AdLedger
