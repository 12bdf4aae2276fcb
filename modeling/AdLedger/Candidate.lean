import AdLedger.Json.Reader

/-!
# Candidates

Creative ads that wait to be served, and their choice by priority: 1 comes first, greater numbers
later, and 0 never. Candidates of one priority form a bucket, in the order in which they were given.
-/

namespace AdLedger

/-- A creative ad with a priority. -/
structure Candidate where
  creativeInstanceId : String
  segment : String
  priority : Nat
  deriving DecidableEq

/-- The candidates of one priority. -/
structure Bucket (α : Type) where
  priority : Nat
  members : List α

namespace Bucket

variable {α : Type}

/-- Adds a candidate to the bucket of its priority, among buckets in ascending order. -/
def insert (priority : Nat) (x : α) : List (Bucket α) → List (Bucket α)
  | [] => [⟨priority, [x]⟩]
  | b :: rest =>
    if priority < b.priority then ⟨priority, [x]⟩ :: b :: rest
    else if priority = b.priority then ⟨priority, b.members ++ [x]⟩ :: rest
    else b :: insert priority x rest

/-- The buckets of candidates, the lowest number first; those of priority 0 are in none. -/
def sort (priority : α → Nat) (candidates : List α) : List (Bucket α) :=
  candidates.foldl
    (fun buckets x => if priority x = 0 then buckets else insert (priority x) x buckets) []

/-- The candidates of the first bucket, if there is one. -/
def highest (priority : α → Nat) (candidates : List α) : List α :=
  match sort priority candidates with
  | [] => []
  | b :: _ => b.members

end Bucket

namespace Candidate

/-- The segment of candidates that are meant for everyone. -/
def untargeted : String := "untargeted"

def isTargeted (c : Candidate) : Bool := c.segment ≠ untargeted

def toJson (c : Candidate) : Json :=
  .record [("creative_instance_id", .ofString c.creativeInstanceId),
    ("segment", .ofString c.segment), ("priority", .ofNat c.priority)]

def ofJson? (j : Json) : Option Candidate := do
  match ← j.fields? ["creative_instance_id", "segment", "priority"] with
  | [some creativeInstanceId, some segment, some priority] =>
    return ⟨← creativeInstanceId.string?, ← segment.string?,
      ← priority.nat?.filter (· < UInt32.size)⟩
  | _ => none

def readAll? (s : String) : Option (List Candidate) := do
  (← (← Json.read? s).items?).mapM ofJson?

end Candidate
end AdLedger
