import AdLedger.Json.Token

/-!
# Reading documents

A text is read token by token, with the arrays and objects that are still open on a stack, so that
documents of any depth can be read. Nothing but spaces may stand before or after the value.
-/

namespace AdLedger.Json

/-- An array or object that is still open, its items in reverse. -/
inductive Open where
  | array (items : List Json)
  /-- The members so far, and the name of the one whose value is being read. -/
  | object (members : List (List Char × Json)) (name : List Char)

/-- What may come next. -/
inductive Expected where
  | value
  /-- A value, or the end of an array that has no items yet. -/
  | valueOrEnd
  /-- The name of a member. -/
  | name (members : List (List Char × Json))
  /-- The name of a member, or the end of an object that has no members yet. -/
  | nameOrEnd
  | colon (members : List (List Char × Json)) (name : List Char)
  /-- A comma or the end of what is open, or the end of the text, after a value. -/
  | after (value : Json)

/-- The arrays and objects that are open, innermost first, and what may come next. -/
structure Reading where
  stack : List Open
  expected : Expected

namespace Reading

def value (stack : List Open) : Token → Option Reading
  | .openArray => some ⟨.array [] :: stack, .valueOrEnd⟩
  | .openObject => some ⟨stack, .nameOrEnd⟩
  | .text written => some ⟨stack, .after (.text written)⟩
  | .atom value => some ⟨stack, .after value⟩
  | _ => none

def after (stack : List Open) (v : Json) (t : Token) : Option Reading :=
  match stack, t with
  | .array items :: stack, .comma => some ⟨.array (v :: items) :: stack, .value⟩
  | .array items :: stack, .closeArray => some ⟨stack, .after (.array (v :: items).reverse)⟩
  | .object members name :: stack, .comma => some ⟨stack, .name ((name, v) :: members)⟩
  | .object members name :: stack, .closeObject =>
    some ⟨stack, .after (.object ((name, v) :: members).reverse)⟩
  | _, _ => none

def step (r : Reading) (t : Token) : Option Reading :=
  match r.expected, t with
  | .value, t => value r.stack t
  | .valueOrEnd, .closeArray =>
    match r.stack with
    | .array _ :: stack => some ⟨stack, .after (.array [])⟩
    | _ => none
  | .valueOrEnd, t => value r.stack t
  | .name members, .text name => some ⟨r.stack, .colon members name⟩
  | .nameOrEnd, .text name => some ⟨r.stack, .colon [] name⟩
  | .nameOrEnd, .closeObject => some ⟨r.stack, .after (.object [])⟩
  | .colon members name, .colon => some ⟨.object members name :: r.stack, .value⟩
  | .after v, t => after r.stack v t
  | _, _ => none

/-- The value that has been read, if nothing is open. -/
def result : Reading → Option Json
  | ⟨[], .after v⟩ => some v
  | _ => none

end Reading

/-- The value that tokens form. -/
def ofTokens? (tokens : List Token) : Option Json :=
  (tokens.foldlM Reading.step ⟨[], .value⟩).bind Reading.result

def read? (s : String) : Option Json := do ofTokens? (← Token.scan s.toList)

end AdLedger.Json
