import AdLedger.Url.Basic
import AdLedger.Url.Host
import AdLedger.Url.Path

/-!
# Reading URLs

An absolute URL in any of its spellings. Spaces and control characters around it and line breaks
and tabs inside it are left out. What is read is already in its one written form: scheme and host
in lower case, the usual port left out, dot segments gone, and characters encoded where they must
be.
-/

namespace AdLedger.Url

/-- A text before and after the first character that ends a part. -/
def cut (ends : Char → Bool) (s : List Char) : List Char × List Char :=
  (s.takeWhile (!ends ·), s.dropWhile (!ends ·))

/-- The text of a URL without what is left out. -/
def cleaned (s : List Char) : List Char :=
  let outside (c : Char) : Bool := c.toNat ≤ 0x20
  let trimmed := ((s.dropWhile outside).reverse.dropWhile outside).reverse
  trimmed.filter fun c => c ≠ '\t' ∧ c ≠ '\n' ∧ c ≠ '\r'

def isSlash (kind : SchemeKind) (c : Char) : Bool := c = '/' || (kind.isSpecial && c = '\\')

/-- Whether a character ends the authority. -/
def endsAuthority (kind : SchemeKind) (c : Char) : Bool := isSlash kind c || c = '?' || c = '#'

/-- User name, password and what follows the last `@` of an authority, if there is one. -/
def takeUserinfo (s : List Char) : List Char × List Char × List Char :=
  let host := (s.reverse.takeWhile (· ≠ '@')).reverse
  let userinfo := (s.take (s.length - host.length)).dropLast
  let (user, password) := cut (· = ':') userinfo
  (encode inUserinfo user, encode inUserinfo (password.drop 1), host)

/-- The host at the front of a text, up to a colon that is not in brackets. -/
def takeHost (inside : Bool) : List Char → List Char × List Char
  | [] => ([], [])
  | c :: rest =>
    if c = ':' && !inside then ([], c :: rest)
    else
      let inside := if c = '[' then true else if c = ']' then false else inside
      let (host, rest) := takeHost inside rest
      (c :: host, rest)

/-- A port and what follows it. The usual port of the scheme counts as none. -/
def takePort? (scheme s : List Char) : Option (Option Nat × List Char) :=
  let digits := s.takeWhile Char.isDigit
  let rest := s.drop digits.length
  let port := Text.ofDigits digits
  let ended := match rest with
    | [] => true
    | c :: _ => c = '/' || c = '\\' || c = '?' || c = '#'
  if !ended || 65535 < port then none
  else if digits.isEmpty || usualPorts.lookup scheme = some port then some (none, rest)
  else some (some port, rest)

/-- The authority at the front of a text, and what follows it. An `@` alone is an authority at the
end of a URL only. -/
def takeAuthority? (scheme : List Char) (kind : SchemeKind) (s tail : List Char) :
    Option (Authority × List Char) := do
  let (part, after) := cut (endsAuthority kind) s
  let (user, password, rest) := takeUserinfo part
  let credentials := !user.isEmpty || !password.isEmpty
  if part = ['@'] && !(after.isEmpty && tail.isEmpty) then none
  let (given, rest) := takeHost false rest
  if given.isEmpty && (credentials || kind = .special || rest.head? = some ':') then none
  let host ← if kind = .special then specialHost? given else opaqueHost? given
  match rest with
  | ':' :: port => do
    let (port, rest) ← takePort? scheme (port ++ after)
    some (⟨user, password, host, port⟩, rest)
  | _ => some (⟨user, password, host, none⟩, after)

/-- The query and the fragment at the end of a text. -/
def readTail (kind : SchemeKind) (s : List Char) : Option (List Char) × Option (List Char) :=
  let (before, after) := cut (· = '#') s
  let query := match before with
    | '?' :: q => some (encode (inQuery kind.isSpecial) q)
    | _ => none
  let fragment := match after with
    | '#' :: f => some (encode inFragment f)
    | _ => none
  (query, fragment)

/-- Whether a character ends the path. -/
def endsPath (c : Char) : Bool := c = '?' || c = '#'

/-- The path of a URL with an authority, given what follows the authority. -/
def authorityPath (kind : SchemeKind) (s : List Char) : List Char × Bool :=
  match s with
  | [] => if kind.isSpecial then (['/'], false) else ([], false)
  | c :: rest => readPath kind (if isSlash kind c then rest else c :: rest)

/-- The host and the path of a file, given what follows `file://`. A drive letter is no host, and a
path with a drive letter has none. -/
def readFile? (s : List Char) : Option (List Char × List Char) := do
  let (given, rest) := cut (fun c => c = '/' || c = '\\') s
  if given.isEmpty || isDrive given then
    return ([], (readPath .file s).1)
  let host ← specialHost? given
  if host = "localhost".toList then return ([], (readPath .file rest).1)
  let (path, drive) := authorityPath .file rest
  return (if drive then [] else host, path)

/-- What follows the scheme, up to the query. -/
def readHierarchy? (scheme : List Char) (kind : SchemeKind) (s tail : List Char) :
    Option (Option Authority × List Char) :=
  match kind with
  | .special => do
    let (authority, rest) ← takeAuthority? scheme kind (s.dropWhile (isSlash kind)) tail
    return (some authority, (authorityPath kind rest).1)
  | .file =>
    match s with
    | a :: b :: rest =>
      if isSlash .file a && isSlash .file b then do
        let (host, path) ← readFile? rest
        return (some ⟨[], [], host, none⟩, path)
      else
        some (some ⟨[], [], [], none⟩,
          (readPath .file (if isSlash .file a then b :: rest else s)).1)
    | [a] => some (some ⟨[], [], [], none⟩, (readPath .file (if isSlash .file a then [] else s)).1)
    | [] => some (some ⟨[], [], [], none⟩, ['/'])
  | .other =>
    match s with
    | '/' :: '/' :: rest => do
      let (authority, rest) ← takeAuthority? scheme kind rest tail
      return (some authority, (authorityPath kind rest).1)
    | '/' :: rest => some (none, (readPath .other rest).1)
    | s => some (none, encode inControls s)

def read? (text : String) : Option Url := do
  let (scheme, rest) ← takeScheme? (cleaned text.toList)
  let kind := schemeKind scheme
  let (before, tail) := cut endsPath rest
  let (authority, path) ← readHierarchy? scheme kind before tail
  let (query, fragment) := readTail kind tail
  return ⟨scheme, authority, path, query, fragment⟩

end AdLedger.Url
