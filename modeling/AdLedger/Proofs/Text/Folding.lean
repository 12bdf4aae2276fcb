import AdLedger.Text.Lowercase
import Mathlib.Data.List.Forall2

/-!
# Texts apart from blanks, case and hyphens

What does not matter where words are compared. Blanks at the ends are taken away, however many there
are (`trimBlank_append`). A capital sigma has two small forms, and a text in lower case may have
either (`Lowered`); they are no ASCII characters, and all else is the same (`Lowered.agree`). Two
texts that differ in the case of ASCII letters, or in hyphens and underscores, are the same in lower
case with underscores (`lower_underscored`). A text of characters that are in that form already
stays as it is (`trimBlank_of_unchanged`, `lower_of_unchanged`).
-/

namespace AdLedger.Text

variable {s t l r : List Char}

/-! ## Blanks at the ends -/

theorem skipBlank_append_of_blank (hl : allBlank l = true) : skipBlank (l ++ s) = skipBlank s :=
  List.dropWhile_append_of_pos (List.all_eq_true.1 hl)

theorem allBlank_reverse : allBlank s.reverse = allBlank s := List.all_reverse

theorem skipBlank_eq_nil (hs : allBlank s = true) : skipBlank s = [] := by
  have happend := skipBlank_append_of_blank (s := []) hs
  rwa [List.append_nil] at happend

/-- Blanks around a text are taken away. -/
theorem trimBlank_append (hl : allBlank l = true) (hr : allBlank r = true) :
    trimBlank (l ++ s ++ r) = trimBlank s := by
  unfold trimBlank
  rw [List.append_assoc, skipBlank_append_of_blank hl]
  by_cases hs : skipBlank s = []
  · -- nothing but blanks, so that the ones at the end are skipped from the start as well
    have hnil : skipBlank (s ++ r) = [] := by
      refine List.dropWhile_append.trans ((if_pos ?_).trans (skipBlank_eq_nil hr))
      exact List.isEmpty_iff.2 hs
    rw [hnil, hs]
  · have happend : skipBlank (s ++ r) = skipBlank s ++ r := by
      refine List.dropWhile_append.trans (if_neg fun hempty => ?_)
      exact hs (List.isEmpty_iff.1 hempty)
    rw [happend, List.reverse_append, skipBlank_append_of_blank (allBlank_reverse.trans hr)]

/-- What takes no part in being blank can be changed before or after blanks are taken away. -/
theorem trimBlank_map {f : Char → Char} (h : ∀ c, isBlank (f c) = isBlank c) (s : List Char) :
    trimBlank (s.map f) = (trimBlank s).map f := by
  have hskip : ∀ s : List Char, skipBlank (s.map f) = (skipBlank s).map f := by
    intro s
    have hcomp : isBlank ∘ f = isBlank := funext h
    unfold skipBlank
    rw [List.dropWhile_map, hcomp]
  unfold trimBlank
  rw [hskip, ← List.map_reverse, hskip, List.map_reverse]

/-! ## Lower case -/

/-- A text in lower case: character by character, where a capital sigma has a second form, the one
that stands at the end of words. -/
inductive Lowered : List Char → List Char → Prop
  | nil : Lowered [] []
  | char (c : Char) {s t : List Char} : Lowered s t → Lowered (c :: s) (lowerChar c ++ t)
  | finalSigma {s t : List Char} : Lowered s t → Lowered ('Σ' :: s) ('ς' :: t)

theorem lowered_lower (s : List Char) : Lowered s (lower s) := by
  induction s with
  | nil => exact .nil
  | cons c s ih => exact .char c ih

/-- Two characters are the same, or neither is an ASCII character. -/
def AgreeInAscii (c d : Char) : Prop := c = d ∨ 0x80 ≤ c.toNat ∧ 0x80 ≤ d.toNat

/-- The forms of a text in lower case differ in characters outside ASCII only. -/
theorem Lowered.agree (h : Lowered s t) : List.Forall₂ AgreeInAscii t (lower s) := by
  have hsame : ∀ u, List.Forall₂ AgreeInAscii u u :=
    fun u => List.forall₂_same.2 fun c _ => .inl rfl
  induction h with
  | nil => exact .nil
  | char c _ ih => exact List.rel_append (hsame (lowerChar c)) ih
  | finalSigma _ ih =>
    have hsigma : lowerChar 'Σ' = ['σ'] := by decide
    show List.Forall₂ AgreeInAscii _ (lowerChar 'Σ' ++ lower _)
    rw [hsigma]
    exact .cons (.inr ⟨by decide, by decide⟩) ih

/-! ## Case and hyphens -/

def underscored (c : Char) : Char := if c = '-' then '_' else c

/-- A character apart from the case of ASCII letters and from being a hyphen or an underscore. -/
def plain (c : Char) : Char := underscored c.toLower

/-- What is said of all characters is said of those of ASCII, one by one, and of the others, which
have no other case here and are no hyphens. -/
@[elab_as_elim]
theorem char_cases {motive : Char → Prop} (ascii : ∀ n < 0x80, motive (Char.ofNat n))
    (other : ∀ c : Char, c.toLower = c → c ≠ '-' → motive c) (c : Char) : motive c := by
  by_cases hc : c.toNat < 0x80
  · have hchar := ascii c.toNat hc
    rwa [Char.ofNat_toNat] at hchar
  · apply other
    · unfold Char.toLower
      refine dif_neg fun hupper => hc ?_
      have hle : c.val.toNat ≤ 90 := UInt32.le_iff_toNat_le.1 hupper.2
      exact Nat.lt_of_le_of_lt hle (by decide)
    · rintro rfl
      exact hc (by decide)

theorem plain_eq_self {c : Char} (hlower : c.toLower = c) (hhyphen : c ≠ '-') : plain c = c := by
  rw [plain, hlower, underscored, if_neg hhyphen]

theorem isBlank_plain (c : Char) : isBlank (plain c) = isBlank c := by
  cases c using char_cases with
  | ascii n hn =>
    revert n
    decide +kernel
  | other c hlower hhyphen => rw [plain_eq_self hlower hhyphen]

theorem underscored_lowerChar_plain (c : Char) :
    (lowerChar (plain c)).map underscored = (lowerChar c).map underscored := by
  cases c using char_cases with
  | ascii n hn =>
    revert n
    decide
  | other c hlower hhyphen => rw [plain_eq_self hlower hhyphen]

/-- Neither the case of ASCII letters nor hyphens and underscores are left after a text is put in
lower case with underscores. -/
theorem lower_underscored (s : List Char) :
    (lower (s.map plain)).map underscored = (lower s).map underscored := by
  induction s with
  | nil => rfl
  | cons c s ih =>
    show (lowerChar (plain c) ++ lower (s.map plain)).map underscored =
      (lowerChar c ++ lower s).map underscored
    rw [List.map_append, List.map_append, underscored_lowerChar_plain, ih]

/-! ## Texts that stay as they are -/

/-- A character of which nothing is changed where words are compared. -/
def Unchanged (c : Char) : Prop := isBlank c = false ∧ lowerChar c = [c] ∧ underscored c = c

instance : DecidablePred Unchanged := fun c =>
  inferInstanceAs (Decidable (isBlank c = false ∧ lowerChar c = [c] ∧ underscored c = c))

theorem skipBlank_of_unchanged (h : ∀ c ∈ s, Unchanged c) : skipBlank s = s := by
  cases s with
  | nil => rfl
  | cons c s =>
    obtain ⟨hblank, -⟩ := h c List.mem_cons_self
    exact List.dropWhile_cons_of_neg (by simp [hblank])

theorem trimBlank_of_unchanged (h : ∀ c ∈ s, Unchanged c) : trimBlank s = s := by
  have hreverse : ∀ c ∈ s.reverse, Unchanged c := fun c hc => h c (List.mem_reverse.1 hc)
  rw [trimBlank, skipBlank_of_unchanged h, skipBlank_of_unchanged hreverse, List.reverse_reverse]

theorem lower_of_unchanged (h : ∀ c ∈ s, Unchanged c) : (lower s).map underscored = s := by
  induction s with
  | nil => rfl
  | cons c s ih =>
    obtain ⟨⟨-, hlower, hunderscored⟩, hs⟩ := List.forall_mem_cons.1 h
    show (lowerChar c ++ lower s).map underscored = c :: s
    rw [List.map_append, hlower, ih hs, List.map_singleton, hunderscored]
    rfl

end AdLedger.Text
