import AdLedger.Json.Quoted
import AdLedger.Text.Utf8

/-!
# Percent encoding

Bytes written as `%` and two hexadecimal digits. Each part of a URL has a set of characters that are
written so; characters outside ASCII are so in all of them.
-/

namespace AdLedger.Url

def inControls (c : Char) : Bool := c.toNat < 0x20 || c.toNat = 0x7f

/-- The characters encoded in a fragment. -/
def inFragment (c : Char) : Bool := inControls c || " \"<>`".contains c

/-- The characters encoded in a path. -/
def inPath (c : Char) : Bool := inFragment c || "#?\x7b\x7d".contains c

/-- The characters encoded in a user name or password. -/
def inUserinfo (c : Char) : Bool := inPath c || "/:;=@[\\]^|".contains c

/-- The characters encoded in a query; one more in a URL of a special scheme. -/
def inQuery (special : Bool) (c : Char) : Bool :=
  inControls c || " \"#<>".contains c || (special && c = '\'')

/-- A hexadecimal digit in upper case. -/
def upperHex (n : Nat) : Char := (Json.hexDigit n).toUpper

/-- A byte as `%` and two digits. -/
def encodeByte (b : UInt8) : List Char := ['%', upperHex (b.toNat / 16), upperHex b.toNat]

/-- One character, encoded if it is of a set or outside ASCII. -/
def encodeChar (set : Char → Bool) (c : Char) : List Char :=
  if c.toNat < 0x80 && !set c then [c] else (String.utf8EncodeChar c).flatMap encodeByte

/-- A text with the characters of a set and those outside ASCII encoded. -/
def encode (set : Char → Bool) (s : List Char) : List Char := s.flatMap (encodeChar set)

/-- The bytes of a text in which encoded bytes have been decoded; a `%` without two digits after it
stands for itself. -/
def decode : List Char → List UInt8
  | [] => []
  | '%' :: a :: b :: rest =>
    match Json.hexValue? a, Json.hexValue? b with
    | some x, some y => UInt8.ofNat (x * 16 + y) :: decode rest
    | _, _ => 0x25 :: decode (a :: b :: rest)
  | c :: rest => String.utf8EncodeChar c ++ decode rest

end AdLedger.Url
