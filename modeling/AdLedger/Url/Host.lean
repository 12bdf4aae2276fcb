import AdLedger.Unicode.Bidi
import AdLedger.Unicode.Composition
import AdLedger.Unicode.HostMapping
import AdLedger.Unicode.Joining
import AdLedger.Url.Address
import AdLedger.Url.Percent
import AdLedger.Url.Punycode

/-!
# Hosts

The host of a URL in its one written form. Host names of special schemes are brought into ASCII:
characters are mapped and composed, and labels outside ASCII spelled with `xn--`. A label that
already has such a spelling must be one that could have been given in plain characters. Other
schemes have hosts that are taken as they are.
-/

namespace AdLedger.Url

open Unicode

/-- Characters that no host name may hold. -/
def forbiddenInDomain (c : Char) : Bool :=
  inControls c || " #/:<>?@[\\]^|%".contains c

/-- Characters that no host of another scheme may hold. -/
def forbiddenInHost (c : Char) : Bool :=
  "\x00\t\n\r #/:<>?@[\\]^|".contains c

def isAscii (s : List Char) : Bool := s.all (·.toNat < 0x80)

/-- How the spelling of a label outside ASCII begins. -/
def spelled : List Char := "xn--".toList

/-- Whether a label outside ASCII is well formed: in composed form, of characters that are kept as
they are, without a mark at its start, and with joiners only where they may stand. -/
def validLabel (label : List Char) : Bool :=
  composed label = label && label.all isHostChar && !label.head?.any isMark &&
    joinersAllowed [] label

/-- The plain characters of a label, if it is well formed. -/
def plainLabel? (label : List Char) : Option (List Char) :=
  if spelled.isPrefixOf label then do
    if !isAscii label then none
    let plain ← Punycode.decode? (label.drop spelled.length)
    if isAscii plain || !validLabel plain then none else some plain
  else if isAscii label || validLabel label then some label
  else none

/-- The written form of a label. -/
def labelText (label : List Char) : List Char :=
  if isAscii label then label else spelled ++ Punycode.encode label

/-- Whether a label in ASCII needs no more than lower case. -/
def isSimpleLabel (label : List Char) : Bool := isAscii label && !spelled.isPrefixOf label

/-- The host name in ASCII, with labels that need it spelled out. Where one label holds characters
from right to left, all of them have to keep the rule for directions. -/
def domainToAscii? (s : List Char) : Option (List Char) := do
  let lowered := s.map Char.toLower
  let ascii ←
    if (splitAt '.' lowered).all isSimpleLabel then some lowered
    else do
      let mapped := composed (← s.mapM mapHostChar?).flatten
      let labels ← (splitAt '.' mapped).mapM plainLabel?
      if labels.any (·.any fun c => (bidiClass c).isRight) && !labels.all keepsBidiRule then none
      else some (['.'].intercalate (labels.map labelText))
  if ascii.any forbiddenInDomain then none else some ascii

/-- A host in brackets. -/
def bracketed? (s : List Char) : Option (List Char) :=
  match s with
  | '[' :: rest => do
    if rest.getLast? ≠ some ']' then none
    return '[' :: address6Text (← address6? rest.dropLast) ++ [']']
  | _ => none

/-- The host of a URL of a special scheme; none if it is empty or not a host. -/
def specialHost? (s : List Char) : Option (List Char) :=
  if s.head? = some '[' then bracketed? s
  else do
    let ascii ← domainToAscii? (← Text.Utf8.decode? (decode s))
    if ascii.isEmpty then none
    else if endsInNumber ascii then return address4Text (← address4? ascii)
    else some ascii

/-- The host of a URL of another scheme. -/
def opaqueHost? (s : List Char) : Option (List Char) :=
  if s.head? = some '[' then bracketed? s
  else if s.any forbiddenInHost then none
  else some (encode inControls s)

end AdLedger.Url
