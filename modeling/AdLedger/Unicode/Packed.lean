/-!
# Packed tables

Tables of character properties, kept as runs of neighbouring characters with one value. A table is
written as lines of base-32 digits, the lowest of a number first, where a digit from 32 on says that
another follows.
-/

namespace AdLedger.Unicode

/-- The value of one of 64 digits. -/
def packedDigit (c : Char) : Nat :=
  if '0' ≤ c ∧ c ≤ '9' then c.toNat - 48
  else if 'A' ≤ c ∧ c ≤ 'Z' then c.toNat - 55
  else if 'a' ≤ c ∧ c ≤ 'z' then c.toNat - 61
  else if c = '-' then 62
  else 63

/-- A number that has been read in part: its value so far, and the weight of the next digit. -/
structure Unpacking where
  done : Array Nat
  value : Nat
  weight : Nat

/-- The numbers that packed lines hold. -/
def numbers (packed : List String) : Array Nat :=
  let step (u : Unpacking) (c : Char) : Unpacking :=
    let d := packedDigit c
    let value := u.value + d % 32 * u.weight
    if d < 32 then ⟨u.done.push value, 0, 1⟩ else ⟨u.done, value, u.weight * 32⟩
  let line (u : Unpacking) (l : String) : Unpacking := l.toList.foldl step u
  (packed.foldl line ⟨#[], 0, 1⟩).done

/-- The whole number that stands for `n` when signs are packed into the lowest bit. -/
def signed (n : Nat) : Int := if n % 2 = 0 then n / 2 else -((n + 1) / 2 : Nat)

/-- Neighbouring characters, given by their numbers, with one value. -/
structure Run (α : Type) where
  first : Nat
  last : Nat
  value : α

/-- Runs in ascending order without overlap. -/
abbrev Runs (α : Type) := Array (Run α)

namespace Runs

variable {α : Type}

/-- The greatest place from `low` on and below `high` whose run starts at `n` or before it, if the
run at `low` does. -/
def search (runs : Runs α) (n low high : Nat) : Nat :=
  if high ≤ low + 1 then low
  else
    let middle := (low + high) / 2
    match runs[middle]? with
    | some r => if r.first ≤ n then search runs n middle high else search runs n low middle
    | none => low
termination_by high - low

/-- The value of the run that a character lies in. -/
def value? (runs : Runs α) (c : Char) : Option α := do
  let r ← runs[runs.search c.toNat 0 runs.size]?
  if r.first ≤ c.toNat ∧ c.toNat ≤ r.last then some r.value else none

end Runs

/-- Runs from triples of numbers: the distance from the end of the run before, one less than the
length, and the value. -/
def unpackRuns (packed : List String) : Runs Nat :=
  let ns := (numbers packed).toList
  let rec go (next : Nat) (done : Runs Nat) : List Nat → Runs Nat
    | gap :: more :: value :: rest =>
      go (next + gap + more + 1) (done.push ⟨next + gap, next + gap + more, value⟩) rest
    | _ => done
  go 0 #[] ns

end AdLedger.Unicode
