import AdLedger.Json.Quoted

/-!
# Addresses in hosts

Host names whose last part is a number are addresses of four bytes, of which the last number given
fills up what is left; a host in brackets is an address of eight pieces, where `::` stands for the
zeros that are missing. Both are written in one way only.
-/

namespace AdLedger.Url

open Text (natural?)

/-- A list in pieces between occurrences of a mark. -/
def splitAt (mark : Char) (s : List Char) : List (List Char) := s.splitOn mark

/-- The number that digits of a base denote. -/
def numberIn (base : Nat) (s : List Char) : Option Nat :=
  s.foldlM (fun n c => do
    let d ← Json.hexValue? c
    if d < base then some (n * base + d) else none) 0

/-- A number in hexadecimal after `0x`, in octal after `0`, else in decimal. A prefix alone is 0. -/
def addressNumber? (s : List Char) : Option Nat :=
  match s with
  | [] => none
  | '0' :: x :: rest => if x = 'x' ∨ x = 'X' then numberIn 16 rest else numberIn 8 (x :: rest)
  | s => numberIn 10 s

/-- The parts between the points of a host name, without an empty one at the end. -/
def addressParts (s : List Char) : List (List Char) :=
  let parts := splitAt '.' s
  if 1 < parts.length ∧ parts.getLast? = some [] then parts.dropLast else parts

/-- Whether the last part of a host name is a number. -/
def endsInNumber (s : List Char) : Bool :=
  (addressParts s).getLast?.any fun part =>
    (!part.isEmpty && part.all Char.isDigit) || (addressNumber? part).isSome

/-- The address of four bytes, as one number, that a host name denotes. -/
def address4? (s : List Char) : Option Nat := do
  let numbers ← (addressParts s).mapM addressNumber?
  let last ← numbers.getLast?
  let before := numbers.dropLast
  if 3 < before.length ∨ before.any (255 < ·) ∨ Nat.pow 256 (4 - before.length) ≤ last then none
  else some (before.foldr (fun n rest => rest / 256 + n * 16777216) 0 + last)

/-- Four bytes in decimal. -/
def address4Text (n : Nat) : List Char :=
  let parts := [n / 16777216, n / 65536 % 256, n / 256 % 256, n % 256]
  ['.'].intercalate (parts.map (Nat.toDigits 10))

/-- A byte in decimal without zeros in front. -/
def byte? (s : List Char) : Option Nat := do
  let n ← natural? s
  if (s.head? = some '0' ∧ 1 < s.length) ∨ 255 < n then none else some n

/-- The last group of a long address: one piece, or four bytes that give two. -/
def lastGroup? (s : List Char) : Option (List Nat) :=
  if s.contains '.' then do
    match ← (splitAt '.' s).mapM byte? with
    | [a, b, c, d] => some [a * 256 + b, c * 256 + d]
    | _ => none
  else do
    if s.isEmpty ∨ 4 < s.length then none
    return [← numberIn 16 s]

/-- The pieces of groups with colons between them; none for an empty text. -/
def groups? (s : List Char) : Option (List Nat) :=
  if s.isEmpty then some []
  else do
    let groups := splitAt ':' s
    let first ← groups.dropLast.mapM fun g =>
      if g.isEmpty ∨ 4 < g.length then none else numberIn 16 g
    return first ++ (← lastGroup? (← groups.getLast?))

/-- A text before and after the first `::` in it. -/
def splitGap? : List Char → Option (List Char × List Char)
  | ':' :: ':' :: rest => some ([], rest)
  | c :: rest => (splitGap? rest).map fun (before, after) => (c :: before, after)
  | [] => none

/-- The eight pieces that the text between brackets denotes. -/
def address6? (s : List Char) : Option (List Nat) :=
  match splitGap? s with
  | some (before, after) => do
    if before.contains '.' then none
    let first ← groups? before
    let last ← groups? after
    if first.length + last.length ≤ 7 then
      some (first ++ List.replicate (8 - first.length - last.length) 0 ++ last)
    else none
  | none => do
    let pieces ← groups? s
    if pieces.length = 8 then some pieces else none

/-- The place and the length of the first of the longest runs of zeros. -/
def longestZeros : List Nat → Nat → Nat × Nat
  | [], _ => (0, 0)
  | n :: rest, i =>
    let here := ((n :: rest).takeWhile (· = 0)).length
    let later := longestZeros rest (i + 1)
    if here < later.2 then later else (i, here)

/-- Pieces in hexadecimal, with the longest run of two or more zeros left out. -/
def address6Text (pieces : List Nat) : List Char :=
  let write (ns : List Nat) : List Char := [':'].intercalate (ns.map (Nat.toDigits 16))
  let (start, length) := longestZeros pieces 0
  if length < 2 then write pieces
  else write (pieces.take start) ++ [':', ':'] ++ write (pieces.drop (start + length))

end AdLedger.Url
