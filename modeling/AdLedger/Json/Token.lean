import AdLedger.Json.Document

/-!
# Tokens

The marks, texts, numbers and words that a document consists of. `Token.scan` takes a text one
character at a time; what a token is does not depend on the tokens around it.
-/

namespace AdLedger.Json

inductive Token where
  | openArray
  | closeArray
  | openObject
  | closeObject
  | comma
  | colon
  /-- A text in its written form. -/
  | text (written : List Char)
  /-- A number or one of `null`, `true` and `false`. -/
  | atom (value : Json)

namespace Token

/-- What an escape in a text still lacks. -/
inductive Escape where
  | letter
  /-- This many hexadecimal digits. -/
  | digits (left : Nat)

/-- What the scanner is inside of, with the characters so far in reverse. -/
inductive Mode where
  | between
  | text (written : List Char) (escape : Option Escape)
  | number (written : List Char)
  | word (letters : List Char)

/-- The tokens so far in reverse, and what has been started. -/
structure State where
  done : List Token
  mode : Mode

/-- Drops the digits at the front of a text that has one there. -/
def skipDigits? (s : List Char) : Option (List Char) :=
  if (s.takeWhile Char.isDigit).isEmpty then none else some (s.dropWhile Char.isDigit)

/-- Whether a run of characters is a number: no zeros in front, and digits on both sides of a point
and after a power of ten. -/
def isNumber (s : List Char) : Bool :=
  (do
    let s := match s with
      | '-' :: rest => rest
      | s => s
    let s ← match s with
      | '0' :: rest => some rest
      | s => skipDigits? s
    let s ← match s with
      | '.' :: rest => skipDigits? rest
      | s => some s
    match s with
    | [] => some ()
    | e :: rest =>
      if e = 'e' ∨ e = 'E' then
        let rest := match rest with
          | '+' :: rest => rest
          | '-' :: rest => rest
          | rest => rest
        if (← skipDigits? rest).isEmpty then some () else none
      else none).isSome

/-- The value of a word. -/
def word? (letters : List Char) : Option Json :=
  if letters = "null".toList then some .null
  else if letters = "true".toList then some (.bool true)
  else if letters = "false".toList then some (.bool false)
  else none

/-- Whether a character can belong to a number. -/
def inNumber (c : Char) : Bool :=
  c.isDigit || c = '+' || c = '-' || c = '.' || c = 'e' || c = 'E'

/-- Ends a number or a word. -/
def finish (s : State) : Option State :=
  match s.mode with
  | .between => some s
  | .number written =>
    if isNumber written.reverse then some ⟨.atom (.number written.reverse) :: s.done, .between⟩
    else none
  | .word letters => do return ⟨.atom (← word? letters.reverse) :: s.done, .between⟩
  | .text _ _ => none

/-- Takes a character that stands between tokens or starts one. -/
def begin (done : List Token) (c : Char) : Option State :=
  if c = ' ' ∨ c = '\n' ∨ c = '\t' ∨ c = '\r' then some ⟨done, .between⟩
  else if c = '[' then some ⟨openArray :: done, .between⟩
  else if c = ']' then some ⟨closeArray :: done, .between⟩
  else if c = '\x7b' then some ⟨openObject :: done, .between⟩
  else if c = '\x7d' then some ⟨closeObject :: done, .between⟩
  else if c = ',' then some ⟨comma :: done, .between⟩
  else if c = ':' then some ⟨colon :: done, .between⟩
  else if c = '"' then some ⟨done, .text [] none⟩
  else if c.isDigit ∨ c = '-' then some ⟨done, .number [c]⟩
  else if c.isLower then some ⟨done, .word [c]⟩
  else none

/-- Takes a character of a text. -/
def textStep (done : List Token) (written : List Char) (escape : Option Escape) (c : Char) :
    Option State :=
  match escape with
  | none =>
    if c = '"' then some ⟨Token.text written.reverse :: done, .between⟩
    else if c = '\\' then some ⟨done, .text (c :: written) (some .letter)⟩
    else if c.toNat < 0x20 then none
    else some ⟨done, .text (c :: written) none⟩
  | some .letter =>
    if c = 'u' then some ⟨done, .text (c :: written) (some (.digits 4))⟩
    else if (escaped? c).isSome then some ⟨done, .text (c :: written) none⟩
    else none
  | some (.digits left) =>
    if (hexValue? c).isNone then none
    else if left ≤ 1 then some ⟨done, .text (c :: written) none⟩
    else some ⟨done, .text (c :: written) (some (.digits (left - 1)))⟩

def step (s : State) (c : Char) : Option State :=
  match s.mode with
  | .text written escape => textStep s.done written escape c
  | .number written =>
    if inNumber c then some ⟨s.done, .number (c :: written)⟩
    else do begin (← finish s).done c
  | .word letters =>
    if c.isLower then some ⟨s.done, .word (c :: letters)⟩
    else do begin (← finish s).done c
  | .between => begin s.done c

def scan (s : List Char) : Option (List Token) := do
  return (← finish (← s.foldlM step ⟨[], .between⟩)).done.reverse

end Token
end AdLedger.Json
