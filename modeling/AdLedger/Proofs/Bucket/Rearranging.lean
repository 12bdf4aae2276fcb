import AdLedger.Proofs.Bucket
import Mathlib.Logic.Relation

/-!
# Candidates in another order

What the buckets of candidates do not depend on: candidates of priority 0, and how candidates of
different priorities stand to each other (`Bucket.Change`). Nothing else makes no difference, since
by such changes candidates come into the order of their buckets (`Bucket.rearranged_sort`). So two
lists of candidates have the same buckets if and only if one comes from the other by such changes
(`Bucket.sort_eq_sort_iff`).
-/

namespace AdLedger.Bucket

open Relation (EqvGen)

variable {α : Type} {priority : α → Nat} {x : α} {xs ys : List α}
  {buckets : List (Bucket α)}

/-- A candidate of priority 0 is removed, or two neighbours of different priorities change their
places. -/
inductive Change (priority : α → Nat) : List α → List α → Prop
  | remove (before : List α) {x : α} (after : List α) : priority x = 0 →
      Change priority (before ++ x :: after) (before ++ after)
  | swap (before : List α) {x y : α} (after : List α) : priority x ≠ priority y →
      Change priority (before ++ x :: y :: after) (before ++ y :: x :: after)

/-- One list comes from another by changes, each made or undone. -/
def Rearranged (priority : α → Nat) : List α → List α → Prop := EqvGen (Change priority)

/-! ## What changes leave as it is -/

/-- A change leaves the candidates of each positive priority as they are. -/
theorem Change.filter_eq (h : Change priority xs ys) {q : Nat} (hq : 0 < q) :
    xs.filter (priority · = q) = ys.filter (priority · = q) := by
  cases h with
  | remove before after hx =>
    have hne : priority _ ≠ q := hx ▸ Nat.ne_of_lt hq
    simp [hne]
  | @swap before x y after hxy =>
    by_cases hx : priority x = q
    · have hy : priority y ≠ q := fun hy => hxy (hx.trans hy.symm)
      simp [hx, hy]
    · simp [List.filter_cons, hx]

theorem Rearranged.filter_eq (h : Rearranged priority xs ys) {q : Nat} (hq : 0 < q) :
    xs.filter (priority · = q) = ys.filter (priority · = q) := by
  induction h with
  | rel _ _ hchange => exact hchange.filter_eq hq
  | refl _ => rfl
  | symm _ _ _ ih => exact ih.symm
  | trans _ _ _ _ _ ih ih' => exact ih.trans ih'

theorem exists_mem_iff_filter_ne_nil {q : Nat} :
    (∃ x ∈ xs, priority x = q) ↔ xs.filter (priority · = q) ≠ [] := by
  simp [List.filter_eq_nil_iff]

/-- The candidates of each positive priority tell all buckets. -/
theorem Sorts.eq_map (h : Sorts priority xs buckets) :
    buckets = (priorities priority xs).sort.map fun q => ⟨q, xs.filter (priority · = q)⟩ := by
  rw [← h.keys, List.map_map]
  refine (List.map_id buckets).symm.trans (List.map_congr_left fun b hb => ?_)
  exact congrArg (Bucket.mk b.priority) (h.members hb)

theorem sort_eq_of_filter_eq
    (h : ∀ q, 0 < q → xs.filter (priority · = q) = ys.filter (priority · = q)) :
    sort priority xs = sort priority ys := by
  have hpriorities : priorities priority xs = priorities priority ys := by
    ext q
    rw [mem_priorities, mem_priorities]
    refine and_congr_right fun hq => ?_
    rw [exists_mem_iff_filter_ne_nil, exists_mem_iff_filter_ne_nil, h q hq]
  rw [(sorts_sort priority xs).eq_map, (sorts_sort priority ys).eq_map, hpriorities]
  refine List.map_congr_left fun q hq => ?_
  rw [h q (mem_priorities.1 ((Finset.mem_sort _).1 hq)).1]

/-! ## Into the order of the buckets -/

theorem Change.rearranged (h : Change priority xs ys) : Rearranged priority xs ys :=
  EqvGen.rel _ _ h

namespace Rearranged

theorem refl (xs : List α) : Rearranged priority xs xs := EqvGen.refl xs

theorem symm (h : Rearranged priority xs ys) : Rearranged priority ys xs := EqvGen.symm _ _ h

theorem trans {zs : List α} (h : Rearranged priority xs ys) (h' : Rearranged priority ys zs) :
    Rearranged priority xs zs := EqvGen.trans _ _ _ h h'

/-- What can be done with a part of the candidates can be done with them all. -/
theorem within (h : Rearranged priority xs ys) (before after : List α) :
    Rearranged priority (before ++ xs ++ after) (before ++ ys ++ after) := by
  induction h with
  | rel _ _ hchange =>
    apply Change.rearranged
    cases hchange with
    | remove l r hx => simpa using Change.remove (before ++ l) (r ++ after) hx
    | swap l r hxy => simpa using Change.swap (before ++ l) (r ++ after) hxy
  | refl _ => exact refl _
  | symm _ _ _ ih => exact ih.symm
  | trans _ _ _ _ _ ih ih' => exact ih.trans ih'

theorem append_left (h : Rearranged priority xs ys) (before : List α) :
    Rearranged priority (before ++ xs) (before ++ ys) := by simpa using h.within before []

theorem append_right (h : Rearranged priority xs ys) (after : List α) :
    Rearranged priority (xs ++ after) (ys ++ after) := h.within [] after

/-- A candidate goes past candidates of other priorities. -/
theorem past (h : ∀ y ∈ xs, priority y ≠ priority x) :
    Rearranged priority (xs ++ [x]) (x :: xs) := by
  induction xs with
  | nil => exact refl _
  | cons y xs ih =>
    obtain ⟨hy, h⟩ := List.forall_mem_cons.1 h
    have hpast : Rearranged priority (y :: (xs ++ [x])) (y :: x :: xs) := (ih h).append_left [y]
    exact hpast.trans (Change.swap [] xs hy).rearranged

end Rearranged

/-- The candidates of buckets, one bucket after the other. -/
def inOrder (buckets : List (Bucket α)) : List α := buckets.flatMap Bucket.members

theorem rearranged_insert (h : Ascending buckets)
    (hmembers : ∀ b ∈ buckets, ∀ y ∈ b.members, priority y = b.priority) (x : α) :
    Rearranged priority (inOrder buckets ++ [x])
      (inOrder (insert (priority x) x buckets)) := by
  induction buckets with
  | nil => exact .refl _
  | cons b buckets ih =>
    obtain ⟨hb, hrest⟩ := List.pairwise_cons.1 h
    obtain ⟨hmember, hothers⟩ := List.forall_mem_cons.1 hmembers
    have hmem : ∀ y ∈ inOrder buckets, b.priority < priority y := by
      intro y hy
      obtain ⟨c, hc, hyc⟩ := List.mem_flatMap.1 hy
      rw [hothers c hc y hyc]
      exact hb c hc
    unfold insert
    split
    next hlt =>
      refine Rearranged.past fun y hy => ?_
      rcases List.mem_append.1 hy with hy | hy
      · have hpriority := hmember y hy
        omega
      · have hgreater := hmem y hy
        omega
    next hge =>
      split
      next heq =>
        have hpast : Rearranged priority (inOrder buckets ++ [x]) (x :: inOrder buckets) :=
          .past fun y hy => by
            have hgreater := hmem y hy
            omega
        simpa [inOrder] using hpast.append_left b.members
      next hne =>
        simpa [inOrder] using (ih hrest hothers).append_left b.members

/-- By changes candidates come into the order of their buckets. -/
theorem rearranged_sort (priority : α → Nat) (xs : List α) :
    Rearranged priority xs (inOrder (sort priority xs)) := by
  induction xs using List.reverseRecOn with
  | nil => exact .refl _
  | append_singleton xs x ih =>
    have hs := sorts_sort priority xs
    refine (ih.append_right [x]).trans ?_
    rw [sort_snoc]
    by_cases hx : priority x = 0
    · rw [if_pos hx]
      simpa using (Change.remove (inOrder (sort priority xs)) [] hx).rearranged
    · rw [if_neg hx]
      exact rearranged_insert hs.ascending (fun b hb y hy => hs.priority_eq hb hy) x

/-- The buckets are the same exactly for what comes from each other by changes. -/
theorem sort_eq_sort_iff :
    sort priority xs = sort priority ys ↔ Rearranged priority xs ys := by
  constructor
  · intro h
    have hxs := rearranged_sort priority xs
    rw [h] at hxs
    exact hxs.trans (rearranged_sort priority ys).symm
  · exact fun h => sort_eq_of_filter_eq fun q hq => h.filter_eq hq

end AdLedger.Bucket
