import AdLedger.Unicode.Marks

/-!
# Composed form

The canonical composed form of texts whose characters are each in that form already: characters are
taken apart into a first character and marks, the marks put into their canonical order, and what can
be written as one character is put together again.
-/

namespace AdLedger.Unicode

/-- A character that stands for two others. -/
structure Composite where
  first : Nat
  second : Nat
  whole : Nat

/-- The composites, in the order of their first and then their second character. -/
def composites : Array Composite :=
  let rec go (before : Nat) (done : Array Composite) : List Nat → Array Composite
    | gap :: second :: shift :: rest =>
      let first := before + gap
      go first (done.push ⟨first, second, (first + signed shift).toNat⟩) rest
    | _ => done
  go 0 #[] (numbers
    ["y1uPaZH1uPcYH1uPYZH3WO-70XOW80YOY80ZOa80aO-B0cOYC0dOgU0eOc80fOYcF0gOe80iOuO0lO-R0nOYS0ZP-bF0",
    "bP-xE0ePcC1dOWyE0ZPayE0nPeyE1XOcC0YOgC0dOkC0iOoC0dPe81dOiyE0iOqC0ZPmyE0dPuyE0jPyyE0nPqyE1WOc",
    "80XOe80YOg80ZOkdF0aOwC0cO-C0dOYD0eOi80fOgdF0iOgD0lO-R0nOYS0ZPcdF0dPcU0ePcD0jPczE0mPgzE1dOmzE",
    "1XOwQ0YOgD0aOozE0cOkD0dOoD0iO-P0dPsD1YOuD0dOqzE0eOyzE0iOiT0ZPuzE0dPW-E0kPa-E1WOc80XOe80YOg80",
    "ZO-D0aOYE0cOcE0dOkE0eOi80fO-dF0iOiO0lO-R0nOYS0ZPYeF0ePgE0mPc-E1YOqE1XOg-E0iOwP0ZPk-E0dPsE0nP",
    "o-E1XOwE0iOYF0ZPq-E0dP-E0jPW_E0nPy-E1XOY_E0dOc_E0ZPg_E1WOqQ0XOgF0ZOc80dOi_E0iOoF0ZPm_E0dPkF0",
    "jPu_E0nPq_E1WOc80XOe80YOg80ZOi80aOwF0cO-F0dO-T0eOk80fO-dF0hOYG0iOaO0lOwR0nO-R0xOYL0ZPwdF0ePs",
    "P1XOeWF0dOiWF2XOaG0dOiWF0iOiG0lOyR0nOWS0ZPmWF0dPeG0nPuWF1XOkG0YOoG0dOwWF0iOwG0ZP-WF0cPgS0dPs",
    "G1dOiXF0iOWH0ZPmXF0cPiS0dPyG0jPuXF0nPqXF1WOe80XOg80YOi80ZOcH0aOgH0cOkH0eOk80fOYfF0gOoH0hOsH0",
    "iOyN0lO-R0nOYS0xOqL0ZP-eF0aPwXF0ePwH0jPYYF0mP-XF1ZOiYF0ZPmYF1WOoYF0XOsYF0YOwH0dO-YF0eOwYF0ZP",
    "YZF1dOaZF0eOeZF1WOofF0XOe80YOwH0ZO-fF0aOoT0dOgZF0eO-H0fOwfF0ZPsfF1XO-H0YOiZF0dOYI0iOcI0ZPmZF",
    "0nPqZF7WO-70XOW80YOY80ZOa80aOWA0cOaA0dOiS0eOc80fOaaF0gOe80iOwM0lOWQ0nOaQ0ZPWaF0bPWwE0ePeA1dO",
    "YwE0ZPcwE0nPgwE1XOeA0YOiA0dOmA0iOqA0dPe81dOkwE0iOsA0ZPowE0dPwwE0jP-wE0nPswE1WOc80XOe80YOg80Z",
    "OmbF0aOyA0cOWB0dOaB0eOi80fOibF0iOiB0lOWQ0nOaQ0ZPebF0dPeS0ePeB0jPexE0mPixE1dOoxE1XOyO0YOiB0aO",
    "qxE0cOmB0dOqB0iOWO0dPuB1YOwB0dOsxE0eO-xE0iOkR0ZPwxE0dPYyE0kPcyE0nPyYF1WOc80XOe80YOg80ZOWC0aO",
    "aC0cOeC0eOi80fOWcF0iOkM0lOWQ0nOaQ0ZPacF0ePiC0mPeyE1YOsC0iOiO1XOiyE0iOyN0ZPmyE0dPuC0nPqyE1XOy",
    "C0iOaD0ZPsyE0dPWD0jPYzE0nP-yE1XOazE0dOezE0ZPizE1WOsO0XOiD0ZOc80dOkzE0iOqD0ZPozE0dPmD0jPwzE0n",
    "PszE1WOc80XOe80YOg80ZOi80aOyD0cOWE0dOWS0eOk80fOWcF0hOaE0iOcM0lOyP0nOWQ0xOaJ0ZPybF0ePuN1XOg-E",
    "0dOk-E2XOcE0dOk-E0iOkE0lO-P0nOYQ0ZPo-E0dPgE0nPw-E1XOmE0YOqE0dOy-E0iOyE0ZPW_E0cPiQ0dPuE1dOk_E",
    "0eOcYF0iOYF0ZPo_E0cPkQ0dP-E0jPw_E0nPs_E1WOe80XOg80YOi80ZOeF0aOiF0cOmF0eOk80fOadF0gOqF0hOuF0i",
    "O-L0lOWQ0nOaQ0xOsJ0ZPWdF0aPy_E0ePyF0jPaWF0mPWWF1ZOkWF0ZPoWF1WOqWF0XOuWF0YOyF0dOWXF0eOyWF0gOY",
    "YF0ZPaXF1dOcXF0eOgXF1WOqdF0XOe80YOyF0ZOWeF0aOqR0dOiXF0eOi80fOydF0gOWYF0ZPudF1XOWG0YOkXF0dOaG",
    "0iOeG0ZPoXF0nPsXFk1WOgqF0XOwj10YQonFQWOe-E0XOa-E0ZOm-E0fOi-E2aOqH1XOgJ1XOiJ0aOuH1XOYqE3WOi_E",
    "0XOe_E0ZOq_E0fOm_E5XO-rE5WOy_E0XOu_E0ZOaWF0fOWWF1XOktE0aOkL0eOotE1aOeL2XOiI4WO-F0XOsF0aOoF0i",
    "OwF6WOgyE0XOcyE0ZOoyE0fOkyE2aOsF1XOiH1XOkH0aOwF1XOaoE3WOkzE0XOgzE0ZOszE0fOozE5XOWqE5WO-zE0XO",
    "wzE0ZOc-E0fOY-E1XOmrE0aOmJ0eOqrE1aOgJ2XOkG4WOWE0XOuD0aOqD0iOyD6WOywE0XOuwE0ZOaxE0fOWxE1WOywE",
    "0XOuwE0ZOaxE0fOWxEFWOamE0XOemE1WOamE0XOemEv1WOemE0XOimE1WOemE0XOimEDdOqmE1dOqmE5dOimE1dOimE7",
    "XOWnE1XOWnE1eOWnE1eOWnEKdOunEX1WOupE0XOqpE0ZOWqE0fOypE0ZPaqE1WOupE0XOqpE0ZOWqE0fOypE0ZPaqEEW",
    "OspE0XOopE0ZO-pE0fOwpE0ZPYqE1WOspE0XOopE0ZO-pE0fOwpE0ZPYqE7iOk3p1aO41aO4x1aOh41aOh41cOe_D1cO",
    "e_D5aO41aO4Z3iObA_7WOoYE0XOL0aOmYE0cOkYE0pOktD0qOmtD0bQsYE4WOcZE0XOP0pOcuD0qOeuD2WOcZE0XOR0p",
    "OYvD0qOavD0bQgZE2WOYaE0XOT0aOWaE0cO-ZE0eOY10pO-vD0qOWwD6WOobE0XOb10pOowD0qOqwD2qOsaE4WOgaE0X",
    "Oj10aOeaE0cOcaE0eOC0qOexD4WOYbE0XOp10pO-xD0qOWyD0bQcbE3bQmWE2bQiXE3WO-xD0XO90aOWWE0cO-_D0pO-",
    "qD0qOWrD0YQgWE0bQaWE4WOwxD0XOF0pOsrD0qOurD2WOwxD0XOH0pOosD0qOqsD0YQ-WE0bQuWE2WOwxD0XOJ0aOmXE",
    "0cOkXE0eOY10pOktD0qOmtD0YQwXE6WOoxD0XOQ0pOYuD0qOauD2pOcYE0qOeYE4WOgxD0XOG0aOuXE0cOsXE0eOC0pO",
    "suD0qOuuD0YQYYE4WOcxD0XOA0pOkvD0qOmvD0YQwYE0bQqYE1WOmWE0XOp30YQwWE1WOkXE0XOr10YQuXE3bQiYE4XO",
    "20eO4q1eO2AcOWC0eOaC3XOV2WOf10cOYC0eOd11cOsA0eOiC1eOkC1WOL0aOqC0cO20eOuC2XOR4eOmC5aOsC0cOf10",
    "eOwC0hO-C4eOwC4eOwC2eO-B3cOYA0eOcA3XOW22WOs10cOaA0eOu11cOu80eOkA1eOmA1WOg20aOsA0cO20eOwA2XOa",
    "24eOoA5aOuA0cOs10eOyA0hOWB4eOyA4eOyA2eOWA9eO2UlO41lO4Z3eO41eO4FeO41eO4-9po190qo170ro13X1qo1d",
    "22qo1d2t3qo12Hqo123qo1f1pIyf228yf223yf22q4-j280tk2AWC-v280sw220tw2Ah2t-24q1-z280t-2C1-z28_3s",
    "Y34v3rc327Yc380rc320sc344rc32y3-f380tg3C1-f38o4gk320lk360_k3A3gk32fIkX42Wt2rv622rv622rv622rv",
    "622rv624rv62f1rv622rv622rv641rv643rv62qNaO41aO4Z1aO41aO47dOC1dOCz1YOO0cOi11YOO0cOi1NYOS1YOSJ",
    "YOO1YOOp1WO40XO80YQC0bQW81WO40XO80YQC0bQW81bQW81bQW81bQW81bQW81bQW81bQW81WO40XO80YQC0bQW81WO",
    "40XO80YQC0bQW81bQW81bQW81bQW81bQW81bQW81bQW81WO40XO81WO40XO87WO40XO81WO40XO87WO40XO80YQC0bQW",
    "71WO40XO80YQC0bQW71bQW71bQW71bQW71bQW71bQW71bQW71WO40XO80YQC0bQW71WO40XO80YQC0bQW71bQW71bQW7",
    "1bQW71bQW71bQW71bQW71WO40XO80YQC1WO40XO80YQC7WO40XO80YQC1WO40XO80YQC7WO40XO81WO40XO87WO40XO8",
    "1WO40XO87WO40XO80YQC1WO40XO80YQC8WO40XO80YQC7WO40XO80YQC0bQW41WO40XO80YQC0bQW41bQW41bQW41bQW",
    "41bQW41bQW41bQW41WO40XO80YQC0bQW41WO40XO80YQC0bQW41bQW41bQW41bQW41bQW41bQW41bQW41bQa44bQy48b",
    "Qi7w1bQ29WOS0XOU0YQW17bQ2m1bQ28WOX20XO_10YQz1oCuPK2uPI2uPq1y1uP52uP52uPBl1uP25uP23uP2OuP22uP",
    "2NuPA7uP22uP43uP25uPW2KuP23uPO1uPODuP41uP43uP41uP43uPC1uPC1uPe61uPe65uP41uP43uP41uP4AuPY51uP",
    "Y5GuPK6uPA1uPA2uP87uPm31uPm31uPm31uPm3ni3vaCy45vaC22vaC22vaC22vaC22vaC22vaC22vaC22vaC22vaC22",
    "vaC22vaC22vaC23vaC22vaC22vaC27vaC20waC43vaC20waC43vaC20waC43vaC20waC43vaC20waC4Y1vaC29vaCy45",
    "vaC22vaC22vaC22vaC22vaC22vaC22vaC22vaC22vaC22vaC22vaC22vaC23vaC22vaC22vaC27vaC20waC43vaC20wa",
    "C43vaC20waC43vaC20waC43vaC20waC4KvaCG1vaCG1vaCG1vaCGBvaC2rcr1dOH8dOK_r2wba222wba22Awba2Ci4df",
    "a251dfa25rG-va280twa2Ax1f-a222xza227Y-a265f-a22o1uza2A0Y-a260f-a2Ct7mbb260wbb240zbb2A_7ljb24",
    "1ljb24yRmfc26f_H-eu260_eu2A0Wfu2E0ffu283_eu2A0Wfu2E1_eu2A7_eu29wX3dhx2C4dhx222dhx22"]).toList

/-- The composites, in the order of the characters that they are. -/
def compositesByWhole : Array Composite := composites.qsort fun a b => a.whole < b.whole

/-- The greatest place from `low` on and below `high` at which `before` holds, if it does at `low`
and only in front of where it does not. -/
def searchComposites (table : Array Composite) (before : Composite → Bool) (low high : Nat) : Nat :=
  if high ≤ low + 1 then low
  else
    let middle := (low + high) / 2
    match table[middle]? with
    | some entry =>
      if before entry then searchComposites table before middle high
      else searchComposites table before low middle
    | none => low
termination_by high - low

/-- The Hangul syllable of two parts, or of a syllable without an end and an end. -/
def composeHangul? (a b : Nat) : Option Nat :=
  if 0x1100 ≤ a ∧ a < 0x1113 ∧ 0x1161 ≤ b ∧ b < 0x1176 then
    some (0xac00 + ((a - 0x1100) * 21 + (b - 0x1161)) * 28)
  else if 0xac00 ≤ a ∧ a < 0xd7a4 ∧ (a - 0xac00) % 28 = 0 ∧ 0x11a8 ≤ b ∧ b < 0x11c3 then
    some (a + (b - 0x11a7))
  else none

def compose? (a b : Char) : Option Char :=
  match composeHangul? a.toNat b.toNat with
  | some n => some (Char.ofNat n)
  | none => do
    let upTo (e : Composite) := e.first < a.toNat || (e.first = a.toNat && e.second ≤ b.toNat)
    let e ← composites[searchComposites composites upTo 0 composites.size]?
    if e.first = a.toNat ∧ e.second = b.toNat then some (Char.ofNat e.whole) else none

/-- The two characters that one stands for. -/
def decompose? (c : Char) : Option (Char × Char) := do
  let table := compositesByWhole
  let e ← table[searchComposites table (·.whole ≤ c.toNat) 0 table.size]?
  if e.whole = c.toNat then some (Char.ofNat e.first, Char.ofNat e.second) else none

/-- The parts of a Hangul syllable. -/
def decomposeHangul (n : Nat) : List Char :=
  let i := n - 0xac00
  let parts := [Char.ofNat (0x1100 + i / 588), Char.ofNat (0x1161 + i % 588 / 28)]
  if i % 28 = 0 then parts else parts ++ [Char.ofNat (0x11a7 + i % 28)]

/-- The greatest number of times that a character can be taken apart. -/
def decompositionDepth : Nat := 4

/-- A character taken apart, and its first part again, `depth` times at most. -/
def decomposeTo : Nat → Char → List Char
  | 0, c => [c]
  | depth + 1, c =>
    if c.toNat < 0xc0 then [c]
    else if 0xac00 ≤ c.toNat ∧ c.toNat < 0xd7a4 then decomposeHangul c.toNat
    else match decompose? c with
      | some (a, b) => decomposeTo depth a ++ [b]
      | none => [c]

/-- A text taken apart, with the marks after each character in the order of their classes. -/
def canonicalOrder (s : List Char) : List Char :=
  let insert (sorted : List Char) (c : Char) : List Char :=
    let k := combiningClass c
    if k = 0 then c :: sorted
    else
      let later := sorted.takeWhile fun d => k < combiningClass d
      later ++ c :: sorted.drop later.length
  (s.foldl insert []).reverse

/-- What has been composed so far: what is finished, in reverse, the last character that starts a
sequence, and the marks after it, in reverse. -/
structure Composing where
  done : List Char
  starter : Option Char
  marks : List Char

/-- Takes one character. It joins the last starter if nothing stands between them, or only marks
of a lower class. -/
def Composing.take (s : Composing) (c : Char) : Composing :=
  let k := combiningClass c
  match s.starter with
  | none => if k = 0 then { s with starter := some c } else { s with done := c :: s.done }
  | some a =>
    let blocked := match s.marks with
      | [] => false
      | m :: _ => k ≤ combiningClass m
    match if blocked then none else compose? a c with
    | some whole => { s with starter := some whole }
    | none =>
      if k = 0 then ⟨s.marks ++ a :: s.done, some c, []⟩ else { s with marks := c :: s.marks }

/-- The canonical composed form of a text. -/
def composed (s : List Char) : List Char :=
  if s.all (·.toNat < 0x300) then s
  else
    let parts := canonicalOrder (s.flatMap (decomposeTo decompositionDepth))
    let last := parts.foldl Composing.take ⟨[], none, []⟩
    (last.marks ++ last.starter.toList ++ last.done).reverse

end AdLedger.Unicode
