import AdLedger.Proofs.Store.TimeRanges

/-!
# Winners of placements

The entries that win a placement in a range (`winnersOf`) are those of the least positive rank, and
there is one wherever an entry of the placement has a rank. Several win where they tie, and a ledger
then gives them all (`views_tie`). So of each placement a ledger gives no more items than win it,
and where the targets of the winners are kept, it gives just the winners (`winners_of_placements`).
-/

namespace AdLedger.Store

open Sql
open Time (Instant)

/-- The best entries of one placement. -/
def winnersOf (entries : List Entry) (placement : String) : List Entry :=
  (bestEntries entries).filter (·.item.placementId = placement)

section

variable {entries : List Entry} {placement : String} {d e : Entry}

theorem mem_winnersOf_iff : e ∈ winnersOf entries placement ↔
    e ∈ entries ∧ e.item.placementId = placement ∧ 0 < e.rank ∧
      ∀ d ∈ entries, d.item.placementId = placement → 0 < d.rank → e.rank ≤ d.rank := by
  simp only [winnersOf, bestEntries, List.mem_filter, decide_eq_true_eq]
  constructor
  · rintro ⟨⟨he, hpos, hbest⟩, rfl⟩
    exact ⟨he, rfl, hpos, hbest⟩
  · rintro ⟨he, rfl, hpos, hbest⟩
    exact ⟨⟨he, hpos, hbest⟩, rfl⟩

/-- Winners of one placement tie. -/
theorem rank_eq_of_mem_winnersOf (hd : d ∈ winnersOf entries placement)
    (he : e ∈ winnersOf entries placement) : d.rank = e.rank := by
  obtain ⟨hd, hdp, hdpos, hdbest⟩ := mem_winnersOf_iff.1 hd
  obtain ⟨he, hep, hepos, hebest⟩ := mem_winnersOf_iff.1 he
  exact Nat.le_antisymm (hdbest e he hep hepos) (hebest d hd hdp hdpos)

/-- A placement with an entry that has a rank is won. By induction on the rank: an entry that does
not win has a lesser one before it. -/
theorem exists_mem_winnersOf (he : e ∈ entries) (hpos : 0 < e.rank) :
    ∃ w, w ∈ winnersOf entries e.item.placementId := by
  induction hn : e.rank using Nat.strong_induction_on generalizing e with
  | _ n ih =>
    by_cases hbest : ∀ d ∈ entries,
        d.item.placementId = e.item.placementId → 0 < d.rank → e.rank ≤ d.rank
    · exact ⟨e, mem_winnersOf_iff.2 ⟨he, rfl, hpos, hbest⟩⟩
    · push Not at hbest
      obtain ⟨d, hd, hplace, hdpos, hlt⟩ := hbest
      rw [← hplace]
      exact ih d.rank (hn ▸ hlt) hd hdpos rfl

end

/-! ## The items of a placement -/

/-- The items of one placement. -/
def itemsAt (items : List Item) (placement : String) : List Item :=
  items.filter (·.placementId = placement)

theorem itemsAt_restoredItems (entries : List Entry) (placement : String) :
    itemsAt (restoredItems entries) placement =
      restoredItems (entries.filter (·.item.placementId = placement)) := by
  rw [itemsAt, restoredItems, restoredItems, List.filter_filter, List.filter_map, List.filter_map,
    List.filter_filter]
  exact congrArg _ (List.filter_congr fun e _ => Bool.and_comm _ _)

/-- What a ledger answers for the best of a range, in which it has these entries. -/
structure Winning (entries : List Entry) (items : List Item) : Prop where
  /-- No entry of the same placement is ranked before an item, and the item has a rank. -/
  least : ∀ i ∈ items, 0 < i.confirmationType.rank ∧ ∀ d ∈ entries,
    d.item.placementId = i.placementId → 0 < d.rank → i.confirmationType.rank ≤ d.rank
  /-- Of a placement there are no more items than winners, all of which tie. -/
  fewer : ∀ placement,
    (itemsAt items placement).length ≤ (winnersOf entries placement).length ∧
      ∀ d ∈ winnersOf entries placement, ∀ e ∈ winnersOf entries placement, d.rank = e.rank
  /-- Each winner of a placement is given once, if the targets of the winners are kept. -/
  each : ∀ placement, (∀ w ∈ winnersOf entries placement, w.item.TargetKept) →
    (itemsAt items placement).Perm (returnedItems (winnersOf entries placement))
  /-- The placement of an entry with a rank is won, and represented by each winner whose target is
  kept. -/
  represented : ∀ e ∈ entries, 0 < e.rank → winnersOf entries e.item.placementId ≠ [] ∧
    ∀ w ∈ winnersOf entries e.item.placementId, w.item.TargetKept →
      w.returned ∈ itemsAt items e.item.placementId

theorem winning_restoredItems {entries best : List Entry}
    (hvalid : ∀ e ∈ entries, e.item.isValid = true) (hbest : best.Perm (bestEntries entries)) :
    Winning entries (restoredItems best) := by
  have hwinners : ∀ placement, (best.filter (·.item.placementId = placement)).Perm
      (winnersOf entries placement) := fun placement => hbest.filter _
  refine ⟨?least, ?fewer, ?each, ?represented⟩
  case least =>
    intro i hi
    obtain ⟨e, he, rfl⟩ := List.mem_map.1 (List.mem_of_mem_filter hi)
    exact of_decide_eq_true (List.mem_filter.1 (hbest.subset he)).2
  case fewer =>
    intro placement
    refine ⟨?_, fun d hd e he => rank_eq_of_mem_winnersOf hd he⟩
    rw [itemsAt_restoredItems, ← (hwinners placement).length_eq]
    exact (List.length_filter_le _ _).trans_eq (List.length_map _)
  case each =>
    intro placement hkept
    rw [itemsAt_restoredItems, restoredItems_eq]
    · exact (hwinners placement).map _
    · intro w hw
      have hw := (hwinners placement).subset hw
      exact ⟨hvalid w (mem_winnersOf_iff.1 hw).1, hkept w hw⟩
  case represented =>
    intro e he hpos
    obtain ⟨first, hfirst⟩ := exists_mem_winnersOf he hpos
    refine ⟨List.ne_nil_of_mem hfirst, fun w hw hkept => ?_⟩
    have hreturned : w.restored = w.returned := Entry.restored_eq_returned_iff.2 hkept
    rw [itemsAt_restoredItems, restoredItems, List.mem_filter, ← hreturned]
    refine ⟨List.mem_map_of_mem ((hwinners _).symm.subset hw), ?_⟩
    rw [hreturned, Entry.isValid_returned]
    exact hvalid w (mem_winnersOf_iff.1 hw).1

/-- After every run, a ledger gives for the best of a range items of least rank among the entries of
their placements, no more of each placement than tie for it, and each of these once where their
targets are kept. So it represents every placement of which an entry of the range has a rank, as far
as the target of a winner is kept. -/
theorem winners_of_placements (handle : SettingsHandle) (now : Instant) (uses : List Use)
    (start finish : Instant) :
    ∃ items, ((Session.start handle now).after uses).use (.best start finish) =
        (.ok items, (Session.start handle now).after uses) ∧
      Winning (((Ideal.start handle).after uses).span start finish) items := by
  have h := Represents.run handle now uses
  obtain ⟨best, hbest, -, huse⟩ := h.bestAnswers start finish
  exact ⟨_, huse, winning_restoredItems
    (fun e he => h.valid e (List.mem_of_mem_filter he)) hbest⟩

/-- A view that is saved twice ties with itself for its placement, and is given twice. -/
theorem views_tie :
    let s := (Session.start (.ofSettings .standard) .epoch).after
      [.save ([.epoch, .epoch].map viewAt)]
    ∃ items, s.use (.best .epoch .epoch) = (.ok items, s) ∧
      items = [viewAt .epoch, viewAt .epoch] ∧ ¬ (items.map (·.placementId)).Nodup := by
  intro s
  have h : Holds s.db ([.epoch, .epoch].map viewRowAt) :=
    holds_save_views (.ofSettings .standard) .epoch [.epoch, .epoch]
  have hbest : bestOf (inSpan .epoch .epoch ([.epoch, .epoch].map viewRowAt)) =
      [.epoch, .epoch].map viewRowAt := by decide
  have hnewest : newest ([.epoch, .epoch].map viewRowAt) = [.epoch, .epoch].map viewRowAt :=
    List.mergeSort_of_pairwise (by decide)
  refine ⟨_, ?_, rfl, by decide⟩
  rw [h.use_best, hbest, hnewest, itemsOf_map_viewRowAt]
  refine congrArg (Except.ok ·, s) ?_
  decide

end AdLedger.Store
