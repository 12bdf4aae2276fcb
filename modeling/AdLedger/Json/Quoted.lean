import AdLedger.Text.Digits

/-!
# Quoted text

The text between the quotes of a JSON string and the characters it stands for. `quote` escapes the
quote, the backslash and the control characters; `unquote?` knows every escape of the format, and
refuses half of a surrogate pair. What `quote` writes is read back as it was: `unquote?_quote`.
-/

namespace AdLedger.Json

/-- A hexadecimal digit in lower case. -/
def hexDigit (n : Nat) : Char := Nat.digitChar (n % 16)

/-- The value of a hexadecimal digit in either case. -/
def hexValue? (c : Char) : Option Nat :=
  if '0' ≤ c ∧ c ≤ '9' then some (c.toNat - 48)
  else if 'a' ≤ c ∧ c ≤ 'f' then some (c.toNat - 87)
  else if 'A' ≤ c ∧ c ≤ 'F' then some (c.toNat - 55)
  else none

/-- The written form of one character. -/
def quoteChar (c : Char) : List Char :=
  if c = '"' then ['\\', '"']
  else if c = '\\' then ['\\', '\\']
  else if c = '\n' then ['\\', 'n']
  else if c = '\r' then ['\\', 'r']
  else if c = '\t' then ['\\', 't']
  else if c = '\x08' then ['\\', 'b']
  else if c = '\x0c' then ['\\', 'f']
  else if c.toNat < 0x20 then ['\\', 'u', '0', '0', hexDigit (c.toNat / 16), hexDigit c.toNat]
  else [c]

/-- The written form of a text, without the quotes around it. -/
def quote (s : List Char) : List Char := s.flatMap quoteChar

/-- The character of a one-letter escape. -/
def escaped? (c : Char) : Option Char :=
  if c = '"' ∨ c = '\\' ∨ c = '/' then some c
  else if c = 'b' then some '\x08'
  else if c = 'f' then some '\x0c'
  else if c = 'n' then some '\n'
  else if c = 'r' then some '\r'
  else if c = 't' then some '\t'
  else none

/-- The number that four hexadecimal digits denote. -/
def hexNumber? (a b c d : Char) : Option Nat := do
  return (((← hexValue? a) * 16 + (← hexValue? b)) * 16 + (← hexValue? c)) * 16 + (← hexValue? d)

/-- What `unquote?` does with the number of a `\u` escape: a character, or the first half of a pair
whose second half must follow. -/
def unit? (n : Nat) : Option (Char ⊕ Nat) :=
  if 0xd800 ≤ n ∧ n < 0xdc00 then some (.inr n)
  else if 0xdc00 ≤ n ∧ n < 0xe000 then none
  else some (.inl (Char.ofNat n))

/-- The character of a surrogate pair. -/
def pair? (high low : Nat) : Option Char :=
  if 0xdc00 ≤ low ∧ low < 0xe000 then
    some (Char.ofNat (0x10000 + (high - 0xd800) * 0x400 + (low - 0xdc00)))
  else none

/-- The text that a written form stands for; none for a bad escape, a control character or half of a
surrogate pair. -/
def unquote? : List Char → Option (List Char)
  | [] => some []
  | '\\' :: 'u' :: a :: b :: c :: d :: rest => do
    match ← unit? (← hexNumber? a b c d) with
    | .inl x => return x :: (← unquote? rest)
    | .inr high =>
      match rest with
      | '\\' :: 'u' :: e :: f :: g :: h :: rest =>
        return (← pair? high (← hexNumber? e f g h)) :: (← unquote? rest)
      | _ => none
  | '\\' :: e :: rest => do return (← escaped? e) :: (← unquote? rest)
  | c :: rest => do
    if c = '"' ∨ c = '\\' ∨ c.toNat < 0x20 then none
    return c :: (← unquote? rest)

/-! ## Laws -/

theorem hexNumber?_control (n : Nat) (h : n < 0x20) :
    hexNumber? '0' '0' (hexDigit (n / 16)) (hexDigit n) = some n := by
  have all : ∀ m : Fin 0x20,
      hexNumber? '0' '0' (hexDigit (m.val / 16)) (hexDigit m.val) = some m.val := by decide
  exact all ⟨n, h⟩

theorem unit?_of_lt {n : Nat} (h : n < 0xd800) : unit? n = some (.inl (Char.ofNat n)) := by
  unfold unit?
  rw [if_neg (by omega), if_neg (by omega)]

/-- An escape of one letter stands for its character. -/
theorem unquote?_escape {e x : Char} (h : escaped? e = some x) (ne : e ≠ 'u') (t : List Char) :
    unquote? ('\\' :: e :: t) = (unquote? t).map (x :: ·) := by
  cases ht : unquote? t <;> simp [unquote?, ne, h, ht]

/-- What is written for one character stands for it, whatever follows. -/
theorem unquote?_quoteChar_append (c : Char) (t : List Char) :
    unquote? (quoteChar c ++ t) = (unquote? t).map (c :: ·) := by
  unfold quoteChar
  split
  · next h => subst h; exact unquote?_escape rfl (by decide) t
  split
  · next h => subst h; exact unquote?_escape rfl (by decide) t
  split
  · next h => subst h; exact unquote?_escape rfl (by decide) t
  split
  · next h => subst h; exact unquote?_escape rfl (by decide) t
  split
  · next h => subst h; exact unquote?_escape rfl (by decide) t
  split
  · next h => subst h; exact unquote?_escape rfl (by decide) t
  split
  · next h => subst h; exact unquote?_escape rfl (by decide) t
  split
  · next h =>
    have unit := unit?_of_lt (n := c.toNat) (by omega)
    cases ht : unquote? t <;>
      simp [unquote?, hexNumber?_control c.toNat h, unit, ht, Char.ofNat_toNat]
  · next hq hb _ _ _ _ _ hc =>
    cases ht : unquote? t <;> simp [unquote?, hq, hb, hc, ht]

/-- What is written for a text stands for it. -/
theorem unquote?_quote (s : List Char) : unquote? (quote s) = some s := by
  induction s with
  | nil => rfl
  | cons c rest ih =>
    have split : quote (c :: rest) = quoteChar c ++ quote rest := by simp [quote]
    rw [split, unquote?_quoteChar_append, ih]
    rfl

end AdLedger.Json
