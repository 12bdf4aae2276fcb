import AdLedger.Proofs.Sql.Table
import Mathlib.Algebra.Order.Ring.Unbundled.Rat
import Mathlib.Data.Rat.Cast.Order
import Mathlib.Order.Compare

/-!
# Rows in order

What a range from one integer to another lets through are numbers (`Value.magnitude?_of_le_le`), and
numbers are in the order of their magnitudes. Rows that are sorted keep the order they had where
their values are equal, so that it does not matter whether rows are left out before or after they
are sorted (`filter_mergeSort`).
-/

namespace AdLedger.Sql

/-! ## Sorting and leaving out -/

section Sorting

variable {α : Type*} {le : α → α → Bool}

/-- A list has one way only to be split before the first element that passes a test, if all
elements after it pass. -/
theorem append_eq_append_of_split {q : α → Bool} {as bs cs ds : List α} (h : as ++ bs = cs ++ ds)
    (ha : ∀ a ∈ as, q a = false) (hb : ∀ b ∈ bs, q b = true)
    (hc : ∀ c ∈ cs, q c = false) (hd : ∀ d ∈ ds, q d = true) : as = cs ∧ bs = ds := by
  induction as generalizing cs with
  | nil =>
    cases cs with
    | nil => exact ⟨rfl, h⟩
    | cons c cs =>
      have := hb c (by rw [show bs = _ from h]; exact List.mem_cons_self)
      simp [hc c List.mem_cons_self] at this
  | cons a as ih =>
    cases cs with
    | nil =>
      have := hd a (by rw [← show _ = ds from h]; exact List.mem_cons_self)
      simp [ha a List.mem_cons_self] at this
    | cons c cs =>
      obtain ⟨rfl, hrest⟩ := List.cons.inj h
      obtain ⟨rfl, rfl⟩ := ih hrest (fun x hx => ha x (List.mem_cons_of_mem _ hx))
        (fun x hx => hc x (List.mem_cons_of_mem _ hx))
      exact ⟨rfl, rfl⟩

/-- Sorting a list with one element more puts it before the elements that it precedes or equals. -/
theorem mergeSort_cons_split (trans : ∀ a b c, le a b → le b c → le a c)
    (total : ∀ a b, le a b || le b a) (a : α) (l : List α) :
    ∃ l₁ l₂, (a :: l).mergeSort le = l₁ ++ a :: l₂ ∧ l.mergeSort le = l₁ ++ l₂ ∧
      (∀ b ∈ l₁, le a b = false) ∧ ∀ b ∈ l₂, le a b = true := by
  obtain ⟨l₁, l₂, h, hl, hb⟩ := List.mergeSort_cons trans total a l
  have hs := List.pairwise_mergeSort trans total (a :: l)
  rw [h, List.pairwise_append] at hs
  exact ⟨l₁, l₂, h, hl, fun b hb' => by simpa using hb b hb', (List.pairwise_cons.1 hs.2.1).1⟩

/-- It does not matter whether elements are left out before or after sorting. -/
theorem filter_mergeSort (trans : ∀ a b c, le a b → le b c → le a c)
    (total : ∀ a b, le a b || le b a) (p : α → Bool) (l : List α) :
    (l.mergeSort le).filter p = (l.filter p).mergeSort le := by
  induction l with
  | nil => simp
  | cons a l ih =>
    obtain ⟨l₁, l₂, h, hl, h₁, h₂⟩ := mergeSort_cons_split trans total a l
    rw [hl, List.filter_append] at ih
    rw [h, List.filter_append]
    cases hp : p a with
    | false =>
      have hneg : ¬ p a = true := Bool.eq_false_iff.1 hp
      rw [List.filter_cons_of_neg hneg, List.filter_cons_of_neg hneg, ih]
    | true =>
      obtain ⟨m₁, m₂, hm, hm', h₁', h₂'⟩ := mergeSort_cons_split trans total a (l.filter p)
      rw [List.filter_cons_of_pos hp, List.filter_cons_of_pos hp, hm]
      obtain ⟨e₁, e₂⟩ := append_eq_append_of_split (ih.trans hm')
        (fun b hb => h₁ b (List.mem_of_mem_filter hb))
        (fun b hb => h₂ b (List.mem_of_mem_filter hb)) h₁' h₂'
      rw [e₁, e₂]

end Sorting

/-! ## Numbers among values -/

namespace Value

/-- The number that a value is, if it is a finite one. -/
def magnitude? : Value → Option ℚ
  | integer n => some n.toInt
  | real (.finite x) => some x
  | _ => none

/-- What lies between two integers is a number. -/
theorem magnitude?_of_le_le {v : Value} {low high : Int64} (hl : (integer low).le v = true)
    (hh : v.le (integer high) = true) : v.magnitude?.isSome := by
  cases v with
  | null => simp [Value.le, relates] at hl
  | integer n => rfl
  | real x =>
    cases x with
    | finite x => rfl
    | infinite negative =>
      cases negative <;>
        simp [Value.le, relates, Value.compare, Real.compareTo, Ordering.swap] at hl hh
  | text s => simp [Value.le, relates, Value.compare, kind, compare, compareOfLessAndEq] at hh
  | blob s => simp [Value.le, relates, Value.compare, kind, compare, compareOfLessAndEq] at hh

theorem compareTo_finite (x y : ℚ) : Real.compareTo (.finite x) y = compare x y :=
  (LinearOrder.compare_eq_compareOfLessAndEq x y).symm

theorem swap_compareTo_finite (x y : ℚ) :
    (Real.compareTo (.finite x) y).swap = compare y x := by
  rw [compareTo_finite]
  exact Std.OrientedCmp.eq_swap.symm

/-- Numbers are ordered by their magnitudes. -/
theorem compare_eq {v w : Value} {x y : ℚ} (hv : v.magnitude? = some x)
    (hw : w.magnitude? = some y) : v.compare w = compare x y := by
  match v, w with
  | integer m, integer n =>
    cases hv
    cases hw
    have hmono : StrictMono fun i : ℤ => (i : ℚ) := Int.cast_strictMono
    have hcmp := hmono.cmp_map_eq m.toInt n.toInt
    rw [cmp_eq_compare, cmp_eq_compare] at hcmp
    exact hcmp.symm
  | integer m, real (.finite y) =>
    cases hv
    cases hw
    exact swap_compareTo_finite y m.toInt
  | real (.finite x), integer n =>
    cases hv
    cases hw
    exact compareTo_finite x n.toInt
  | real (.finite x), real (.finite y) =>
    cases hv
    cases hw
    exact compareTo_finite x y

theorem compare_ne_lt {v w : Value} {x y : ℚ} (hv : v.magnitude? = some x)
    (hw : w.magnitude? = some y) : (v.compare w != .lt) = decide (y ≤ x) := by
  rw [compare_eq hv hw, Bool.eq_iff_iff, bne_iff_ne, decide_eq_true_iff]
  exact compare_ge_iff_ge

theorem integer_le_integer (m n : Int64) : (integer m).le (integer n) = decide (m ≤ n) := by
  have hle : (compare m.toInt n.toInt != .gt) = decide (m ≤ n) := by
    rw [Bool.eq_iff_iff, bne_iff_ne, decide_eq_true_iff, Int64.le_iff_toInt_le]
    exact compare_le_iff_le
  simp only [le, relates, Value.compare, hle]
  rfl

/-- Texts are equal values if they are the same. -/
theorem text_eq_text (s t : String) : (text s).eq (text t) = decide (s = t) := by
  simp only [Value.eq, relates, Value.compare]
  by_cases hlt : s < t
  · have hne : s ≠ t := fun he => String.lt_irrefl t (he ▸ hlt)
    simp [hlt, hne]
  · by_cases he : s = t <;> simp [hlt, he]

end Value

end AdLedger.Sql
