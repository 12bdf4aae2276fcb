/-!
# Reading bytes as text

UTF-8 with replacement: where the bytes form no character, the longest run of them that starts one
is read as U+FFFD, and a byte that starts none is read so by itself. `decode?` takes well-formed
bytes only.
-/

namespace AdLedger.Text.Utf8

/-- The bytes that may follow a first byte directly, and how many follow it in all. -/
def followers (first : Nat) : Option (Nat × Nat × Nat) :=
  if 0xc2 ≤ first ∧ first ≤ 0xdf then some (0x80, 0xbf, 1)
  else if first = 0xe0 then some (0xa0, 0xbf, 2)
  else if first = 0xed then some (0x80, 0x9f, 2)
  else if 0xe1 ≤ first ∧ first ≤ 0xef then some (0x80, 0xbf, 2)
  else if first = 0xf0 then some (0x90, 0xbf, 3)
  else if 0xf1 ≤ first ∧ first ≤ 0xf3 then some (0x80, 0xbf, 3)
  else if first = 0xf4 then some (0x80, 0x8f, 3)
  else none

/-- What a decoder has taken of a character: the bits so far, how many bytes are still to come, and
the bounds of the next one. -/
structure Started where
  bits : Nat
  left : Nat
  low : Nat
  high : Nat

/-- A decoder's state: between characters, or inside one. -/
abbrev State := Option Started

/-- Takes a byte between two characters: a character, the start of one, or nothing of the kind. -/
def start (byte : Nat) : List (Option Char) × State :=
  if byte < 0x80 then ([some (Char.ofNat byte)], none)
  else match followers byte with
    | some (low, high, left) => ([], some ⟨byte % Nat.pow 2 (6 - left), left, low, high⟩)
    | none => ([none], none)

/-- Takes one byte. A byte that does not continue a started character ends it and is taken anew. -/
def step (state : State) (byte : Nat) : List (Option Char) × State :=
  match state with
  | none => start byte
  | some s =>
    if s.low ≤ byte ∧ byte ≤ s.high then
      let bits := s.bits * 64 + byte % 64
      if s.left = 1 then ([some (Char.ofNat bits)], none)
      else ([], some ⟨bits, s.left - 1, 0x80, 0xbf⟩)
    else let (out, next) := start byte
      (none :: out, next)

/-- The characters that bytes form; `none` where they form none. -/
def scan : State → List UInt8 → List (Option Char)
  | none, [] => []
  | some _, [] => [none]
  | state, b :: rest =>
    let (out, next) := step state b.toNat
    out ++ scan next rest

/-- The text of any bytes, with U+FFFD where they form no character. -/
def decode (bytes : List UInt8) : String :=
  String.ofList ((scan none bytes).map fun c => c.getD '\ufffd')

def decode? (bytes : List UInt8) : Option (List Char) := (scan none bytes).mapM id

def encode (s : List Char) : List UInt8 := s.flatMap String.utf8EncodeChar

end AdLedger.Text.Utf8
