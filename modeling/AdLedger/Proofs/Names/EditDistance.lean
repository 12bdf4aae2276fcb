import AdLedger.Names.EditDistance
import Mathlib.Order.Bounds.Basic
import Mathlib.Order.MinMax
import Mathlib.Tactic.Basic

/-!
# Edits

An edit puts one character into a text, takes one out or replaces one, at any place (`Edit`), and
edits are made one after the other (`Edits`). A recursion over both texts (`suffixDistance`) counts
the least number of edits that turn one text into another: there are edits of that number
(`edits_suffixDistance`), and one edit makes a difference of one at most, whatever the other text is
(`Edit.suffixDistance_le`).

The rows of the edit distance hold what the recursion gives for the beginnings of the texts, read
backwards (`lastRow_eq`). Edits can be read backwards as well, so that the edit distance is what the
recursion gives (`editDistance_eq`), and the least number of edits (`editDistance_isLeast`).
-/

namespace AdLedger.Names

variable {a b c : List Char} {m n : Nat}

/-- One edit: a character is put in, taken out or replaced. -/
inductive Edit : List Char → List Char → Prop
  | insertion (s t : List Char) (x : Char) : Edit (s ++ t) (s ++ x :: t)
  | deletion (s t : List Char) (x : Char) : Edit (s ++ x :: t) (s ++ t)
  | replacement (s t : List Char) (x y : Char) : Edit (s ++ x :: t) (s ++ y :: t)

/-- So many edits, one after the other. -/
inductive Edits : Nat → List Char → List Char → Prop
  | none (a : List Char) : Edits 0 a a
  | more {n : Nat} {a b c : List Char} : Edit a b → Edits n b c → Edits (n + 1) a c

/-! ## The recursion of the distance -/

/-- The distance of two texts from the distances of what follows their first characters. -/
def suffixDistance : List Char → List Char → Nat
  | [], b => b.length
  | x :: a, [] => (x :: a).length
  | x :: a, y :: b =>
    if x = y then suffixDistance a b
    else min (suffixDistance a b) (min (suffixDistance a (y :: b)) (suffixDistance (x :: a) b)) + 1

@[simp] theorem suffixDistance_nil_left (b : List Char) : suffixDistance [] b = b.length := by
  rw [suffixDistance]

@[simp] theorem suffixDistance_nil_right (a : List Char) : suffixDistance a [] = a.length := by
  cases a <;> rw [suffixDistance]

theorem suffixDistance_cons_cons (x : Char) (a : List Char) (y : Char) (b : List Char) :
    suffixDistance (x :: a) (y :: b) =
      if x = y then suffixDistance a b
      else min (suffixDistance a b)
        (min (suffixDistance a (y :: b)) (suffixDistance (x :: a) b)) + 1 := by
  rw [suffixDistance]

/-! ## One edit makes a difference of one at most -/

/-- A character in front of either text makes a difference of one at most. Where the two first
characters are equal, the bound for one text rests on the bound for the other, so that all four are
proved together. -/
theorem suffixDistance_cons_near (a b : List Char) : ∀ x,
    (suffixDistance (x :: a) b ≤ suffixDistance a b + 1 ∧
      suffixDistance a b ≤ suffixDistance (x :: a) b + 1) ∧
    suffixDistance a (x :: b) ≤ suffixDistance a b + 1 ∧
      suffixDistance a b ≤ suffixDistance a (x :: b) + 1 := by
  induction a generalizing b with
  | nil =>
    induction b with
    | nil => simp
    | cons y b ihb => grind [suffixDistance_nil_left, suffixDistance_cons_cons]
  | cons w a iha =>
    induction b with
    | nil => grind [suffixDistance_nil_right, suffixDistance_cons_cons]
    | cons y b ihb => grind [suffixDistance_cons_cons]

theorem suffixDistance_cons_le_cons (x y : Char) (a c : List Char) :
    suffixDistance (x :: a) c ≤ suffixDistance (y :: a) c + 1 := by
  induction c with
  | nil => simp
  | cons z c ih =>
    have hx := suffixDistance_cons_near a c x
    have hy := suffixDistance_cons_near a c y
    have hz := suffixDistance_cons_near a c z
    grind [suffixDistance_cons_cons]

/-- What makes a difference of one at most does so behind any text. -/
theorem suffixDistance_append_le (h : ∀ c, suffixDistance a c ≤ suffixDistance b c + 1)
    (s c : List Char) : suffixDistance (s ++ a) c ≤ suffixDistance (s ++ b) c + 1 := by
  induction s generalizing c with
  | nil => exact h c
  | cons z s ihs =>
    induction c with
    | nil => simpa using ihs []
    | cons y c ihc =>
      have hc := ihs c
      have hyc := ihs (y :: c)
      grind [suffixDistance_cons_cons]

theorem Edit.suffixDistance_le (h : Edit a b) (c : List Char) :
    suffixDistance a c ≤ suffixDistance b c + 1 := by
  cases h with
  | insertion s t x =>
    exact suffixDistance_append_le (fun c => (suffixDistance_cons_near t c x).1.2) s c
  | deletion s t x =>
    exact suffixDistance_append_le (fun c => (suffixDistance_cons_near t c x).1.1) s c
  | replacement s t x y => exact suffixDistance_append_le (suffixDistance_cons_le_cons x y t) s c

/-- No fewer edits than the distance turn one text into the other. -/
theorem Edits.suffixDistance_le (h : Edits n a b) : suffixDistance a b ≤ n := by
  induction h with
  | none a =>
    induction a with
    | nil => simp
    | cons x a ih => simpa [suffixDistance_cons_cons] using ih
  | @more n a b c hedit _ ih =>
    have hone := hedit.suffixDistance_le c
    omega

/-! ## As many edits as the distance are enough -/

/-- Edits of the rest of a text are edits of the text. -/
theorem Edits.cons (z : Char) (h : Edits n a b) : Edits n (z :: a) (z :: b) := by
  induction h with
  | none a => exact .none (z :: a)
  | more hedit _ ih =>
    refine .more ?_ ih
    cases hedit with
    | insertion s t x => exact .insertion (z :: s) t x
    | deletion s t x => exact .deletion (z :: s) t x
    | replacement s t x y => exact .replacement (z :: s) t x y

/-- As many edits as the distance says turn one text into the other. -/
theorem edits_suffixDistance (a b : List Char) : Edits (suffixDistance a b) a b := by
  induction a generalizing b with
  | nil =>
    induction b with
    | nil => simpa using Edits.none []
    | cons y b ihb =>
      rw [suffixDistance_nil_left] at ihb ⊢
      exact .more (.insertion [] [] y) (ihb.cons y)
  | cons x a iha =>
    have hdelete : ∀ b, Edits (suffixDistance a b + 1) (x :: a) b :=
      fun b => .more (.deletion [] a x) (iha b)
    induction b with
    | nil => simpa using hdelete []
    | cons y b ihb =>
      rw [suffixDistance_cons_cons]
      split
      next hxy => exact hxy ▸ (iha b).cons x
      next =>
        -- the least of the three ways that the recursion tries
        rcases min_choice (suffixDistance a b)
          (min (suffixDistance a (y :: b)) (suffixDistance (x :: a) b)) with hreplace | hother
        · rw [hreplace]
          exact .more (.replacement [] a x y) ((iha b).cons y)
        · rw [hother]
          rcases min_choice (suffixDistance a (y :: b)) (suffixDistance (x :: a) b) with hd | hi
          · rw [hd]
            exact hdelete (y :: b)
          · rw [hi]
            exact .more (.insertion [] (x :: a) y) (ihb.cons y)

/-! ## Reading backwards -/

theorem Edit.reverse (h : Edit a b) : Edit a.reverse b.reverse := by
  cases h with
  | insertion s t x => simpa using Edit.insertion t.reverse s.reverse x
  | deletion s t x => simpa using Edit.deletion t.reverse s.reverse x
  | replacement s t x y => simpa using Edit.replacement t.reverse s.reverse x y

theorem Edits.reverse (h : Edits n a b) : Edits n a.reverse b.reverse := by
  induction h with
  | none a => exact .none a.reverse
  | more hedit _ ih => exact .more hedit.reverse ih

theorem suffixDistance_reverse (a b : List Char) :
    suffixDistance a.reverse b.reverse = suffixDistance a b := by
  refine Nat.le_antisymm (edits_suffixDistance a b).reverse.suffixDistance_le ?_
  have hback := (edits_suffixDistance a.reverse b.reverse).reverse
  rw [List.reverse_reverse, List.reverse_reverse] at hback
  exact hback.suffixDistance_le

/-! ## Rows -/

/-- The distances of a text from another and from that with more and more characters in front. -/
def prefixRow (a c : List Char) : List Char → List Nat
  | [] => [suffixDistance a c]
  | y :: b => suffixDistance a c :: prefixRow a (y :: c) b

@[simp] theorem headD_prefixRow (a c b : List Char) :
    (prefixRow a c b).headD 0 = suffixDistance a c := by
  cases b <;> rfl

/-- The least of three ways, of which the third costs nothing for equal characters. -/
theorem suffixDistance_eq_min (x : Char) (a : List Char) (y : Char) (b : List Char) :
    suffixDistance (x :: a) (y :: b) =
      min (min (suffixDistance a (y :: b) + 1) (suffixDistance (x :: a) b + 1))
        (suffixDistance a b + if x ≠ y then 1 else 0) := by
  have hleft := suffixDistance_cons_near a b x
  have hright := suffixDistance_cons_near a b y
  by_cases hxy : x = y
  · rw [suffixDistance_cons_cons, if_pos hxy, if_neg (not_not_intro hxy)]
    omega
  · rw [suffixDistance_cons_cons, if_neg hxy, if_pos hxy]
    omega

theorem cons_fillRow (x : Char) (a c b : List Char) :
    suffixDistance (x :: a) c :: fillRow x (suffixDistance (x :: a) c) b (prefixRow a c b) =
      prefixRow (x :: a) c b := by
  induction b generalizing c with
  | nil => rfl
  | cons y b ih =>
    rw [prefixRow, prefixRow, fillRow, headD_prefixRow, ← suffixDistance_eq_min, ih]

/-- The row for all of `a` is that of `a` read backwards. -/
theorem lastRow_eq (b a c : List Char) :
    lastRow b c.length a (prefixRow c [] b) = prefixRow (a.reverse ++ c) [] b := by
  induction a generalizing c with
  | nil => rfl
  | cons x a ih =>
    have hrow := cons_fillRow x c [] b
    rw [suffixDistance_nil_right, List.length_cons] at hrow
    rw [lastRow, hrow, ← List.length_cons (a := x), ih, List.reverse_cons, List.append_assoc,
      List.singleton_append]

theorem range'_eq_prefixRow (c b : List Char) :
    List.range' c.length (b.length + 1) = prefixRow [] c b := by
  induction b generalizing c with
  | nil => simp [prefixRow]
  | cons y b ih =>
    rw [List.length_cons, List.range'_succ, prefixRow, suffixDistance_nil_left, ← ih (y :: c),
      List.length_cons]

theorem getD_prefixRow (a c b : List Char) :
    (prefixRow a c b).getD b.length 0 = suffixDistance a (b.reverse ++ c) := by
  induction b generalizing c with
  | nil => rfl
  | cons y b ih =>
    rw [prefixRow, List.length_cons, List.getD_cons_succ, ih, List.reverse_cons, List.append_assoc,
      List.singleton_append]

/-- The edit distance is what the recursion over both texts gives. -/
theorem editDistance_eq (a b : List Char) : editDistance a b = suffixDistance a b := by
  unfold editDistance
  split
  next ha => simp [List.isEmpty_iff.1 ha]
  next =>
    split
    next hb => simp [List.isEmpty_iff.1 hb]
    next =>
      have hrow := lastRow_eq b a []
      rw [List.length_nil, ← range'_eq_prefixRow, List.length_nil, ← List.range_eq_range'] at hrow
      rw [hrow, getD_prefixRow, List.append_nil, List.append_nil, suffixDistance_reverse]

@[simp] theorem editDistance_nil_left (b : List Char) : editDistance [] b = b.length := by
  simp [editDistance_eq]

@[simp] theorem editDistance_nil_right (a : List Char) : editDistance a [] = a.length := by
  simp [editDistance_eq]

theorem editDistance_cons_cons (x : Char) (a : List Char) (y : Char) (b : List Char) :
    editDistance (x :: a) (y :: b) =
      if x = y then editDistance a b
      else min (editDistance a b)
        (min (editDistance a (y :: b)) (editDistance (x :: a) b)) + 1 := by
  simp only [editDistance_eq, suffixDistance_cons_cons]

theorem Edits.editDistance_le (h : Edits n a b) : editDistance a b ≤ n :=
  (editDistance_eq a b).trans_le h.suffixDistance_le

theorem edits_editDistance (a b : List Char) : Edits (editDistance a b) a b := by
  rw [editDistance_eq]
  exact edits_suffixDistance a b

/-! ## The distance as a metric -/

theorem Edits.trans (h : Edits m a b) (h' : Edits n b c) : Edits (m + n) a c := by
  induction h with
  | none => simpa using h'
  | more hedit _ ih =>
    rw [Nat.add_right_comm]
    exact .more hedit (ih h')

theorem Edit.symm (h : Edit a b) : Edit b a := by
  cases h with
  | insertion s t x => exact .deletion s t x
  | deletion s t x => exact .insertion s t x
  | replacement s t x y => exact .replacement s t y x

theorem Edits.symm (h : Edits n a b) : Edits n b a := by
  induction h with
  | none a => exact .none a
  | more hedit _ ih => exact ih.trans (.more hedit.symm (.none _))

theorem editDistance_eq_zero_iff : editDistance a b = 0 ↔ a = b := by
  constructor
  · intro h
    have hedits := edits_editDistance a b
    rw [h] at hedits
    cases hedits
    rfl
  · rintro rfl
    exact Nat.le_zero.1 (Edits.none a).editDistance_le

theorem editDistance_comm (a b : List Char) : editDistance a b = editDistance b a :=
  Nat.le_antisymm (edits_editDistance b a).symm.editDistance_le
    (edits_editDistance a b).symm.editDistance_le

/-- The edit distance is the least number of edits that turn one text into the other: 0 for equal
texts only, the same in both directions, and no longer than any detour. -/
theorem editDistance_isLeast (a b : List Char) :
    IsLeast {n | Edits n a b} (editDistance a b) ∧
    (editDistance a b = 0 ↔ a = b) ∧
    editDistance a b = editDistance b a ∧
    ∀ c, editDistance a c ≤ editDistance a b + editDistance b c :=
  ⟨⟨edits_editDistance a b, fun _ h => h.editDistance_le⟩, editDistance_eq_zero_iff,
    editDistance_comm a b,
    fun c => ((edits_editDistance a b).trans (edits_editDistance b c)).editDistance_le⟩

example : editDistance "kitten".toList "sitting".toList = 3 := by decide

end AdLedger.Names
