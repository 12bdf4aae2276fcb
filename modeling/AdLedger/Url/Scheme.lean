/-!
# Schemes

The schemes whose URLs have a form of their own, with their usual ports.
-/

namespace AdLedger.Url

inductive SchemeKind where
  /-- A scheme with hosts of the network; `\` counts as `/`. -/
  | special
  | file
  | other
  deriving DecidableEq

def SchemeKind.isSpecial (k : SchemeKind) : Bool := k ≠ other

/-- The special schemes and their usual ports. -/
def usualPorts : List (List Char × Nat) :=
  [("http".toList, 80), ("https".toList, 443), ("ws".toList, 80), ("wss".toList, 443),
    ("ftp".toList, 21)]

def schemeKind (scheme : List Char) : SchemeKind :=
  if scheme = "file".toList then .file
  else if (usualPorts.lookup scheme).isSome then .special
  else .other

/-- Takes a scheme and its colon off the front of a text: a letter, then letters, digits and the
marks `+`, `-` and `.`, in lower case. -/
def takeScheme? (s : List Char) : Option (List Char × List Char) :=
  let inScheme (c : Char) : Bool := c.isAlphanum || c = '+' || c = '-' || c = '.'
  let name := s.takeWhile inScheme
  match name, s.drop name.length with
  | first :: _, ':' :: rest => if first.isAlpha then some (name.map Char.toLower, rest) else none
  | _, _ => none

end AdLedger.Url
