import AdLedger.Text.Digits

/-!
# URLs

The parts of an absolute URL, each in its written form, and the text they make.
-/

namespace AdLedger

namespace Url

/-- Who and where: the part of a URL after `//`. -/
structure Authority where
  user : List Char
  password : List Char
  /-- The host; it may be empty. -/
  host : List Char
  /-- The port, unless it is the usual one of the scheme. -/
  port : Option Nat
  deriving DecidableEq

end Url

structure Url where
  scheme : List Char
  authority : Option Url.Authority
  path : List Char
  query : Option (List Char)
  fragment : Option (List Char)
  deriving DecidableEq

namespace Url

namespace Authority

/-- User name and password before an `@`; nothing if there is neither. -/
def userinfo (a : Authority) : List Char :=
  if a.user.isEmpty && a.password.isEmpty then []
  else a.user ++ (if a.password.isEmpty then [] else ':' :: a.password) ++ ['@']

def written (a : Authority) : List Char :=
  '/' :: '/' :: a.userinfo ++ a.host ++
    match a.port with
    | some port => ':' :: Nat.toDigits 10 port
    | none => []

end Authority

/-- Something with a mark in front, or nothing. -/
def marked (mark : Char) : Option (List Char) → List Char
  | some s => mark :: s
  | none => []

/-- The authority and the path. A path that could be taken for an authority has `/.` in front. -/
def hierarchy (u : Url) : List Char :=
  match u.authority with
  | some a => a.written ++ u.path
  | none => if "//".toList.isPrefixOf u.path then '/' :: '.' :: u.path else u.path

def text (u : Url) : String :=
  String.ofList
    (u.scheme ++ ':' :: u.hierarchy ++ marked '?' u.query ++ marked '#' u.fragment)

/-- Whether a URL names a host. -/
def hasHost (u : Url) : Bool := u.authority.any fun a => !a.host.isEmpty

end Url
end AdLedger
