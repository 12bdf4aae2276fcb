import AdLedger.Json.Quoted

/-!
# Documents

JSON values as they are written: a number and a text keep their written form, so that nothing is
lost between reading and writing. Members of an object keep their order, and a name may occur
twice.
-/

namespace AdLedger

/-- A JSON value. -/
inductive Json where
  | null
  | bool (b : Bool)
  /-- A number in its written form. -/
  | number (written : List Char)
  /-- A text in its written form, without the quotes. -/
  | text (written : List Char)
  | array (items : List Json)
  | object (members : List (List Char × Json))

namespace Json

instance : Inhabited Json := ⟨null⟩

/-! ## Values as documents -/

def ofString (s : String) : Json := text (quote s.toList)

def ofNat (n : Nat) : Json := number (Nat.toDigits 10 n)

def ofOption : Option Json → Json
  | some j => j
  | none => null

def record (members : List (String × Json)) : Json :=
  object (members.map fun (name, value) => (quote name.toList, value))

/-! ## Documents as values -/

/-- The text of a document that is one. -/
def string? : Json → Option String
  | text written => (unquote? written).map String.ofList
  | _ => none

/-- The number of a document that is a whole number not below zero, written with digits alone. -/
def nat? : Json → Option Nat
  | number written => Text.natural? written
  | _ => none

/-- The items of a document that is an array. -/
def items? : Json → Option (List Json)
  | array items => some items
  | _ => none

/-- The value of each of some names. In an object a name may occur once at most, and other members
are passed over; an array has the values in the order of the names, as far as it goes. -/
def fields? (names : List String) : Json → Option (List (Option Json))
  | object members => do
    let members ← members.mapM fun (name, value) => return (String.ofList (← unquote? name), value)
    names.mapM fun name =>
      match members.filter (·.1 = name) with
      | [] => some none
      | [(_, value)] => some (some value)
      | _ => none
  | array items =>
    if items.length ≤ names.length then
      some (items.map some ++ List.replicate (names.length - items.length) none)
    else none
  | _ => none

/-! ## Written form -/

mutual

/-- The written form without spaces. -/
def written : Json → List Char
  | null => "null".toList
  | bool b => (if b then "true" else "false").toList
  | number w => w
  | text w => '"' :: w ++ ['"']
  | array items => '[' :: writtenItems items ++ [']']
  | object members => '\x7b' :: writtenMembers members ++ ['\x7d']

def writtenItems : List Json → List Char
  | [] => []
  | [j] => j.written
  | j :: rest => j.written ++ ',' :: writtenItems rest

def writtenMembers : List (List Char × Json) → List Char
  | [] => []
  | [(name, value)] => '"' :: name ++ '"' :: ':' :: value.written
  | (name, value) :: rest =>
    '"' :: name ++ '"' :: ':' :: value.written ++ ',' :: writtenMembers rest

end

/-- A document on one line. -/
def line (j : Json) : String := String.ofList j.written

/-- An object with each member on a line of its own, two spaces in. -/
def lines (members : List (String × Json)) : String :=
  let member (m : String × Json) : List Char :=
    "\n  \"".toList ++ quote m.1.toList ++ "\": ".toList ++ m.2.written
  String.ofList ('\x7b' :: [','].intercalate (members.map member) ++ ['\n', '\x7d'])

end Json
end AdLedger
