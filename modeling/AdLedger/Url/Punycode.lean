/-!
# Punycode

The spelling of labels outside ASCII with letters, digits and hyphens. The ASCII characters come
first; each further character is given by how far it lies, in the order of characters and of places,
from the one before. Distances are written in base 36 with thresholds that follow their usual size.
-/

namespace AdLedger.Url.Punycode

def base : Nat := 36

/-- The number of digits a threshold can spare at a place: 1 to 26. -/
def threshold (k bias : Nat) : Nat := min 26 (max 1 (k - bias))

/-- Divides a distance until it is at most 455, and counts the digits this takes. -/
def shrink (distance k : Nat) : Nat × Nat :=
  if 455 < distance then shrink (distance / 35) (k + base) else (distance, k)
termination_by distance

/-- The bias after a distance that belonged to the given number of characters. -/
def adapt (distance count : Nat) (first : Bool) : Nat :=
  let distance := if first then distance / 700 else distance / 2
  let (rest, k) := shrink (distance + distance / count) 0
  k + base * rest / (rest + 38)

/-- A digit: `a` to `z`, then `0` to `9`. -/
def digit (n : Nat) : Char := Char.ofNat (if n < 26 then n + 97 else n + 22)

/-- The value of a digit in either case. -/
def digitValue? (c : Char) : Option Nat :=
  if 'a' ≤ c ∧ c ≤ 'z' then some (c.toNat - 97)
  else if 'A' ≤ c ∧ c ≤ 'Z' then some (c.toNat - 65)
  else if '0' ≤ c ∧ c ≤ '9' then some (c.toNat - 22)
  else none

theorem threshold_pos (k bias : Nat) : 0 < threshold k bias := by unfold threshold; omega

/-- The digits of a distance, from place `k` on. -/
def digits (bias k distance : Nat) : List Char :=
  let t := threshold k bias
  if distance < t then [digit distance]
  else
    digit (t + (distance - t) % (base - t)) ::
      digits bias (k + base) ((distance - t) / (base - t))
termination_by distance
decreasing_by
  have := threshold_pos k bias
  exact Nat.lt_of_le_of_lt (Nat.div_le_self _ _) (by omega)

/-- What has been written so far: the digits, the distance since the last character written, the
bias, and how many characters have been written. -/
structure Encoding where
  out : List Char
  distance : Nat
  bias : Nat
  written : Nat

/-- Passes one character of the label while the characters numbered `n` are written. -/
def Encoding.pass (plain n : Nat) (e : Encoding) (c : Char) : Encoding :=
  if c.toNat < n then { e with distance := e.distance + 1 }
  else if c.toNat = n then
    { out := e.out ++ digits e.bias base e.distance
      distance := 0
      bias := adapt e.distance (e.written + 1) (e.written = plain)
      written := e.written + 1 }
  else e

/-- Writes the characters of a label with each of the given numbers, in ascending order. -/
def encodeFrom (label : List Char) (plain : Nat) (n : Nat) (e : Encoding) : List Nat → Encoding
  | [] => e
  | m :: rest =>
    let e := { e with distance := e.distance + (m - n) * (e.written + 1) }
    let e := label.foldl (Encoding.pass plain m) e
    encodeFrom label plain (m + 1) { e with distance := e.distance + 1 } rest

/-- A number among ascending ones, once. -/
def insertNumber (n : Nat) : List Nat → List Nat
  | [] => [n]
  | m :: rest =>
    if n < m then n :: m :: rest else if n = m then m :: rest else m :: insertNumber n rest

def encode (label : List Char) : List Char :=
  let plain := label.filter (·.toNat < 0x80)
  let numbers := (label.filter (0x80 ≤ ·.toNat)).foldl (fun ns c => insertNumber c.toNat ns) []
  let start : Encoding := ⟨[], 0, 72, plain.length⟩
  plain ++ (if plain.isEmpty then [] else ['-']) ++
    (encodeFrom label plain.length 128 start numbers).out

/-- Reads a distance off the front of the digits, the digit at place `k` having the given weight. -/
def readDistance (bias k weight sum : Nat) : List Char → Option (Nat × List Char)
  | [] => none
  | c :: rest => do
    let d ← digitValue? c
    let sum := sum + d * weight
    if UInt32.size ≤ sum then none
    let t := threshold k bias
    if d < t then some (sum, rest)
    else readDistance bias (k + base) (weight * (base - t)) sum rest

theorem length_of_readDistance {bias k weight sum : Nat} {s : List Char} {r : Nat × List Char}
    (h : readDistance bias k weight sum s = some r) : r.2.length < s.length := by
  induction s generalizing k weight sum with
  | nil => simp [readDistance] at h
  | cons c rest ih =>
    simp only [readDistance, Option.bind_eq_bind, Option.bind_eq_some_iff] at h
    obtain ⟨d, -, h⟩ := h
    split at h
    · simp at h
    · split at h
      · cases h; simp
      · have := ih h
        simp only [List.length_cons]
        omega

/-- Puts the characters that digits give into a label, starting after place `i` and number `n`. -/
def decodeFrom (label : List Char) (i n bias : Nat) (s : List Char) : Option (List Char) :=
  if s.isEmpty then some label
  else
    match h : readDistance bias base 1 0 s with
    | none => none
    | some (distance, rest) =>
      let count := label.length + 1
      let n := n + (i + distance) / count
      let place := (i + distance) % count
      if 0x10ffff < n ∨ (0xd800 ≤ n ∧ n < 0xe000) ∨ n < 0x80 then none
      else
        decodeFrom (label.take place ++ Char.ofNat n :: label.drop place) (place + 1) n
          (adapt distance count (i = 0)) rest
termination_by s.length
decreasing_by exact length_of_readDistance h

/-- The label of a spelling. The last hyphen ends the ASCII characters, of which there must then be
one at least. -/
def decode? (s : List Char) : Option (List Char) :=
  let tail := (s.reverse.takeWhile (· ≠ '-')).reverse
  let plain := (s.take (s.length - tail.length)).dropLast
  if tail.length < s.length ∧ plain.isEmpty then none
  else if plain.all (·.toNat < 0x80) then decodeFrom plain 0 128 72 tail
  else none

end AdLedger.Url.Punycode
