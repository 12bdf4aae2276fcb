import AdLedger.Candidate
import Mathlib.Data.Finset.Sort
import Mathlib.Data.List.Basic
import Mathlib.Data.List.Induction

/-!
# Buckets of candidates

The buckets that candidates are sorted into: in ascending order, one for each positive priority that
occurs, with the candidates of that priority in their order (`Bucket.sorts_sort`). So each candidate
of a positive priority is in one bucket, as often as it was given (`Bucket.Grouped`), and the first
bucket holds the candidates of the least positive priority (`Bucket.highest_eq_filter`,
`Bucket.Best`).
-/

namespace AdLedger.Bucket

variable {α : Type} {priority : α → Nat} {p q : Nat} {x : α} {buckets : List (Bucket α)}

def Ascending (buckets : List (Bucket α)) : Prop :=
  buckets.Pairwise fun b c => b.priority < c.priority

def membersAt (q : Nat) (buckets : List (Bucket α)) : List α :=
  (buckets.filter (·.priority = q)).flatMap Bucket.members

theorem membersAt_cons (b : Bucket α) (buckets : List (Bucket α)) :
    membersAt q (b :: buckets) =
      (if b.priority = q then b.members else []) ++ membersAt q buckets := by
  by_cases h : b.priority = q <;> simp [membersAt, h]

theorem membersAt_eq_nil (h : ∀ b ∈ buckets, b.priority ≠ q) : membersAt q buckets = [] := by
  rw [membersAt, List.filter_eq_nil_iff.2 fun b hb => by simpa using h b hb, List.flatMap_nil]

/-- In ascending order no two buckets have the same priority. -/
theorem Ascending.membersAt_eq (h : Ascending buckets) {b : Bucket α} (hb : b ∈ buckets) :
    membersAt b.priority buckets = b.members := by
  induction buckets with
  | nil => cases hb
  | cons c buckets ih =>
    obtain ⟨hc, h⟩ := List.pairwise_cons.1 h
    rw [membersAt_cons]
    obtain rfl | hb := List.mem_cons.1 hb
    · rw [if_pos rfl, membersAt_eq_nil fun d hd => Nat.ne_of_gt (hc d hd), List.append_nil]
    · rw [if_neg (Nat.ne_of_lt (hc b hb)), ih h hb, List.nil_append]

/-! ## Adding a candidate -/

theorem exists_mem_insert :
    (∃ b ∈ insert p x buckets, b.priority = q) ↔ q = p ∨ ∃ b ∈ buckets, b.priority = q := by
  induction buckets with
  | nil => simp [insert, eq_comm]
  | cons b buckets ih =>
    unfold insert
    split
    · simp [eq_comm]
    · split
      next h => simp [← h, eq_comm]
      next =>
        simp only [List.exists_mem_cons_iff, ih]
        tauto

theorem Ascending.insert (h : Ascending buckets) : Ascending (insert p x buckets) := by
  induction buckets with
  | nil => simp [Ascending, Bucket.insert]
  | cons b buckets ih =>
    have hall := h
    obtain ⟨hb, h⟩ := List.pairwise_cons.1 h
    unfold Bucket.insert
    split
    next hlt =>
      refine List.pairwise_cons.2 ⟨fun c hc => ?_, hall⟩
      obtain rfl | hc := List.mem_cons.1 hc
      · exact hlt
      · exact Nat.lt_trans hlt (hb c hc)
    next hge =>
      split
      next heq => exact List.pairwise_cons.2 ⟨fun c hc => heq ▸ hb c hc, h⟩
      next hne =>
        refine List.pairwise_cons.2 ⟨fun c hc => ?_, ih h⟩
        obtain hc | ⟨d, hd, hdc⟩ := exists_mem_insert.1 ⟨c, hc, rfl⟩
        · omega
        · exact hdc ▸ hb d hd

/-- A candidate goes to the end of the bucket of its priority, and no other bucket changes. -/
theorem membersAt_insert (h : Ascending buckets) :
    membersAt q (insert p x buckets) = membersAt q buckets ++ if q = p then [x] else [] := by
  induction buckets with
  | nil => by_cases hq : q = p <;> simp [insert, membersAt, hq, eq_comm]
  | cons b buckets ih =>
    obtain ⟨hb, h⟩ := List.pairwise_cons.1 h
    unfold insert
    split
    next hlt =>
      rw [membersAt_cons]
      by_cases hq : q = p
      · have hnil : membersAt q (b :: buckets) = [] := by
          refine membersAt_eq_nil fun c hc => ?_
          obtain rfl | hc := List.mem_cons.1 hc
          · omega
          · have := hb c hc
            omega
        rw [hnil, if_pos hq, if_pos hq.symm]
        rfl
      · simp [hq, Ne.symm hq]
    next hge =>
      split
      next heq =>
        rw [membersAt_cons, membersAt_cons]
        by_cases hq : q = p
        · have hnil : membersAt q buckets = [] := by
            refine membersAt_eq_nil fun c hc => ?_
            have := hb c hc
            omega
          simp [hq, ← heq, hq ▸ hnil]
        · simp [hq, ← heq, Ne.symm hq]
      next hne => rw [membersAt_cons, membersAt_cons, ih h, List.append_assoc]

/-! ## Sorting candidates -/

structure Sorts (priority : α → Nat) (xs : List α) (buckets : List (Bucket α)) : Prop where
  ascending : Ascending buckets
  exists_mem_iff : ∀ q, (∃ b ∈ buckets, b.priority = q) ↔ 0 < q ∧ ∃ x ∈ xs, priority x = q
  membersAt_eq : ∀ q, 0 < q → membersAt q buckets = xs.filter (priority · = q)

theorem Sorts.nil : Sorts priority [] [] where
  ascending := List.Pairwise.nil
  exists_mem_iff := by simp
  membersAt_eq := by simp [membersAt]

/-- Adding the next candidate, unless it is of priority 0. -/
theorem Sorts.snoc {xs : List α} (h : Sorts priority xs buckets) (x : α) :
    Sorts priority (xs ++ [x])
      (if priority x = 0 then buckets else insert (priority x) x buckets) := by
  by_cases hx : priority x = 0
  · rw [if_pos hx]
    refine ⟨h.ascending, fun q => ?_, fun q hq => ?_⟩
    · rw [h.exists_mem_iff]
      refine and_congr_right fun hq => ⟨fun ⟨y, hy, hyq⟩ => ⟨y, List.mem_append_left _ hy, hyq⟩, ?_⟩
      rintro ⟨y, hy, hyq⟩
      obtain hy | hy := List.mem_append.1 hy
      · exact ⟨y, hy, hyq⟩
      · rw [List.mem_singleton.1 hy] at hyq
        omega
    · rw [h.membersAt_eq q hq, List.filter_append]
      have hne : priority x ≠ q := by omega
      simp [hne]
  · rw [if_neg hx]
    refine ⟨h.ascending.insert, fun q => ?_, fun q hq => ?_⟩
    · rw [exists_mem_insert, h.exists_mem_iff]
      constructor
      · rintro (rfl | ⟨hq, y, hy, hyq⟩)
        · exact ⟨Nat.pos_of_ne_zero hx, x, List.mem_append_right _ (List.mem_singleton_self x), rfl⟩
        · exact ⟨hq, y, List.mem_append_left _ hy, hyq⟩
      · rintro ⟨hq, y, hy, hyq⟩
        obtain hy | hy := List.mem_append.1 hy
        · exact .inr ⟨hq, y, hy, hyq⟩
        · exact .inl (List.mem_singleton.1 hy ▸ hyq.symm)
    · rw [membersAt_insert h.ascending, h.membersAt_eq q hq, List.filter_append]
      by_cases hq : q = priority x <;> simp [hq, eq_comm]

theorem sort_snoc (priority : α → Nat) (xs : List α) (x : α) :
    sort priority (xs ++ [x]) = if priority x = 0 then sort priority xs
      else insert (priority x) x (sort priority xs) := List.foldl_append

theorem sorts_sort (priority : α → Nat) (xs : List α) : Sorts priority xs (sort priority xs) := by
  induction xs using List.reverseRecOn with
  | nil => exact Sorts.nil
  | append_singleton xs x ih =>
    rw [sort_snoc]
    exact ih.snoc x

/-! ## Every candidate in its bucket -/

/-- The positive priorities of candidates. -/
def priorities (priority : α → Nat) (xs : List α) : Finset Nat :=
  {q ∈ (xs.map priority).toFinset | 0 < q}

theorem mem_priorities {xs : List α} :
    q ∈ priorities priority xs ↔ 0 < q ∧ ∃ x ∈ xs, priority x = q := by
  simp [priorities, and_comm]

/-- Buckets for candidates: one for each positive priority, in ascending order, that holds the
candidates of this priority in their order. Each candidate of a positive priority is in one of them,
as often as it was given, and nothing else is in any. -/
structure Grouped [DecidableEq α] (priority : α → Nat) (xs : List α) (buckets : List (Bucket α)) :
    Prop where
  keys : buckets.map Bucket.priority = (priorities priority xs).sort
  members : ∀ b ∈ buckets, b.members = xs.filter (priority · = b.priority)
  counted : ∀ x ∈ xs, 0 < priority x → ∃ b ∈ buckets, b.members.count x = xs.count x ∧
    ∀ c ∈ buckets, x ∈ c.members → c = b
  ranked : ∀ b ∈ buckets, ∀ x ∈ b.members, x ∈ xs ∧ 0 < priority x

namespace Sorts

variable {xs : List α}

theorem keys (h : Sorts priority xs buckets) :
    buckets.map Bucket.priority = (priorities priority xs).sort := by
  have hascending : (buckets.map Bucket.priority).Pairwise (· < ·) :=
    List.pairwise_map.2 h.ascending
  have hsame : (buckets.map Bucket.priority).toFinset = priorities priority xs := by
    ext q
    rw [List.mem_toFinset, List.mem_map, h.exists_mem_iff, mem_priorities]
  have hnodup : (buckets.map Bucket.priority).Nodup := hascending.imp Nat.ne_of_lt
  rw [← hsame]
  exact ((List.toFinset_sort (· ≤ ·) hnodup).2 (hascending.imp Nat.le_of_lt)).symm

theorem members (h : Sorts priority xs buckets) {b : Bucket α} (hb : b ∈ buckets) :
    b.members = xs.filter (priority · = b.priority) := by
  have hpos := ((h.exists_mem_iff b.priority).1 ⟨b, hb, rfl⟩).1
  rw [← h.ascending.membersAt_eq hb, h.membersAt_eq _ hpos]

theorem priority_eq (h : Sorts priority xs buckets) {b : Bucket α} (hb : b ∈ buckets)
    (hx : x ∈ b.members) : priority x = b.priority := by
  rw [h.members hb] at hx
  exact of_decide_eq_true (List.mem_filter.1 hx).2

/-- In ascending order the priority of a bucket tells which one it is. -/
theorem eq_of_priority_eq (h : Sorts priority xs buckets) {b c : Bucket α} (hb : b ∈ buckets)
    (hc : c ∈ buckets) (heq : c.priority = b.priority) : c = b := by
  have hmembers : c.members = b.members := by rw [h.members hc, h.members hb, heq]
  cases b
  cases c
  simp_all

theorem grouped [DecidableEq α] (h : Sorts priority xs buckets) : Grouped priority xs buckets where
  keys := h.keys
  members _ hb := h.members hb
  counted x hx hpos := by
    obtain ⟨b, hb, hbx⟩ := (h.exists_mem_iff (priority x)).2 ⟨hpos, x, hx, rfl⟩
    refine ⟨b, hb, ?_, fun c hc hxc => ?_⟩
    · rw [h.members hb]
      exact List.count_filter (decide_eq_true hbx.symm)
    · exact h.eq_of_priority_eq hb hc ((h.priority_eq hc hxc).symm.trans hbx.symm)
  ranked b hb x hx := by
    have hpos := ((h.exists_mem_iff b.priority).1 ⟨b, hb, rfl⟩).1
    have hbx := h.priority_eq hb hx
    rw [h.members hb] at hx
    exact ⟨(List.mem_filter.1 hx).1, by omega⟩

/-- The first of ascending buckets has the least positive priority. -/
theorem isLeast {b : Bucket α} (h : Sorts priority xs (b :: buckets)) :
    IsLeast (priorities priority xs : Set Nat) b.priority := by
  have hmem : ∀ q, q ∈ priorities priority xs ↔ ∃ c ∈ b :: buckets, c.priority = q :=
    fun q => mem_priorities.trans (h.exists_mem_iff q).symm
  refine ⟨(hmem _).2 ⟨b, List.mem_cons_self, rfl⟩, fun q hq => ?_⟩
  obtain ⟨c, hc, rfl⟩ := (hmem q).1 hq
  rcases List.mem_cons.1 hc with rfl | hc
  · exact Nat.le_refl _
  · exact Nat.le_of_lt ((List.pairwise_cons.1 h.ascending).1 c hc)

/-- No bucket is empty, so that its first candidate tells its priority. -/
theorem head?_members (h : Sorts priority xs buckets) {b : Bucket α} (hb : b ∈ buckets) :
    b.members.head?.map priority = some b.priority := by
  obtain ⟨-, w, hw, hwb⟩ := (h.exists_mem_iff b.priority).1 ⟨b, hb, rfl⟩
  have hmem : w ∈ b.members := by
    rw [h.members hb]
    exact List.mem_filter.2 ⟨hw, decide_eq_true hwb⟩
  obtain ⟨first, rest, hfirst⟩ := List.exists_cons_of_ne_nil (List.ne_nil_of_mem hmem)
  rw [hfirst, List.head?_cons, Option.map_some,
    h.priority_eq hb (hfirst ▸ List.mem_cons_self)]

end Sorts

example : (sort id [3, 0, 1, 3]).map Bucket.members = [[1], [3, 3]] := by decide

/-- The candidates of the least positive priority, and that priority; no candidates and no priority
where none is positive. -/
def Best (priority : α → Nat) (xs best : List α) : Option Nat → Prop
  | none => priorities priority xs = ∅ ∧ best = []
  | some least => IsLeast (priorities priority xs : Set Nat) least ∧
      best = xs.filter (priority · = least)

theorem best_highest (priority : α → Nat) (xs : List α) :
    Best priority xs (highest priority xs) ((highest priority xs).head?.map priority) := by
  have hs := sorts_sort priority xs
  unfold highest
  cases hb : sort priority xs with
  | nil =>
    rw [hb] at hs
    refine ⟨Finset.eq_empty_of_forall_notMem fun q hq => ?_, rfl⟩
    obtain ⟨b, hb, -⟩ := (hs.exists_mem_iff q).2 (mem_priorities.1 hq)
    cases hb
  | cons b buckets =>
    rw [hb] at hs
    show Best priority xs b.members (b.members.head?.map priority)
    rw [hs.head?_members List.mem_cons_self]
    exact ⟨hs.isLeast, hs.members List.mem_cons_self⟩

/-- The first bucket holds the candidates of the least positive priority. -/
theorem highest_eq_filter (priority : α → Nat) (xs : List α) :
    highest priority xs = xs.filter fun x =>
      0 < priority x ∧ ∀ y ∈ xs, 0 < priority y → priority x ≤ priority y := by
  have hbest := best_highest priority xs
  cases hleast : (highest priority xs).head?.map priority with
  | none =>
    rw [hleast] at hbest
    obtain ⟨hempty, hnil⟩ := hbest
    refine hnil.trans (List.filter_eq_nil_iff.2 fun x hx hmin => ?_).symm
    have hmem := mem_priorities.2 ⟨(of_decide_eq_true hmin).1, x, hx, rfl⟩
    rw [hempty] at hmem
    cases hmem
  | some least =>
    rw [hleast] at hbest
    obtain ⟨⟨hmem, hle⟩, hfilter⟩ := hbest
    obtain ⟨hpos, w, hw, rfl⟩ := mem_priorities.1 hmem
    refine hfilter.trans (List.filter_congr fun x hx => decide_eq_decide.2 ⟨fun heq => ?_, ?_⟩)
    · exact ⟨heq ▸ hpos, fun y hy hy0 => heq ▸ hle (mem_priorities.2 ⟨hy0, y, hy, rfl⟩)⟩
    · rintro ⟨hx0, hmin⟩
      exact Nat.le_antisymm (hmin w hw hpos) (hle (mem_priorities.2 ⟨hx0, x, hx, rfl⟩))

end AdLedger.Bucket
