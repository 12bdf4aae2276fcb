import AdLedger.Proofs.Bucket
import AdLedger.Proofs.Store.History

/-!
# The best items of placements

Of the entries of a range, the best of each placement (`bestEntries`) are those of the least
positive rank. They are what the bucket of highest priority holds (`filter_bestEntries`), and what a
ledger answers with (`Represents.bestAnswers`), save that it reads targets anew: it gives back the
best of what was saved if and only if the targets of items that have a rank are kept.
-/

namespace AdLedger.Store

open Sql
open Time (Instant)

def Entry.rank (e : Entry) : Nat := e.item.confirmationType.rank

/-- The entries of positive rank that no entry of positive rank and of the same placement has a
lesser rank than. -/
def bestEntries (entries : List Entry) : List Entry :=
  entries.filter fun e => 0 < e.rank ∧
    ∀ d ∈ entries, d.item.placementId = e.item.placementId → 0 < d.rank → e.rank ≤ d.rank

/-! ## Ranks -/

/-- Looking a confirmation type up by its name is looking it up. -/
theorem lookup_map_name (ranks : List (ConfirmationType × Nat)) (t : ConfirmationType) :
    (ranks.map fun (u, rank) => (u.name, rank)).lookup t.name = ranks.lookup t := by
  induction ranks with
  | nil => rfl
  | cons p ranks ih =>
    obtain ⟨u, rank⟩ := p
    have hbeq : (t.name == u.name) = (t == u) := by
      rw [Bool.eq_iff_iff, beq_iff_eq, beq_iff_eq, ConfirmationType.name_inj]
    rw [List.map_cons, List.lookup_cons, List.lookup_cons, hbeq, ih]

/-- The rank of a text is that of the confirmation type that it names. -/
theorem rank_text (s : String) :
    placementRanking.rank (.text s) = (ConfirmationType.ofName s).rank := by
  by_cases hs : ConfirmationType.ofName s = .undefined
  · have hnone : placementRanking.ranks.lookup s = none := by
      refine List.lookup_eq_none_iff.2 fun p hp => bne_iff_ne.2 fun he => ?_
      obtain ⟨⟨t, rank⟩, ht, rfl⟩ := List.mem_map.1 hp
      have hdefined : ∀ q ∈ ConfirmationType.ranked, q.1 ≠ .undefined := by decide
      refine hdefined _ ht ?_
      rw [← hs, he, ConfirmationType.ofName_name]
    rw [Ranking.rank, hnone, hs]
    rfl
  · have hlookup := lookup_map_name ConfirmationType.ranked (ConfirmationType.ofName s)
    rw [ConfirmationType.name_ofName hs] at hlookup
    exact congrArg (Option.getD · 0) hlookup

@[simp] theorem rankOf_record (e : Entry) : rankOf e.record = e.rank := by
  rw [rankOf, Entry.confirmation_record, rank_text, ConfirmationType.ofName_name, Entry.rank]

theorem bestOf_map_record (entries : List Entry) :
    bestOf (entries.map Entry.record) = (bestEntries entries).map Entry.record := by
  refine filter_map_record fun e _ => ?_
  rw [Bool.eq_iff_iff]
  simp only [rankOf_record, List.all_map, Function.comp_apply, Bool.and_eq_true, decide_eq_true_eq,
    List.all_eq_true, Entry.placement_record, Value.text_eq_text, Bool.not_eq_true',
    Bool.and_eq_false_iff, decide_eq_false_iff_not, Nat.not_lt]
  refine and_congr_right fun _ => forall₂_congr fun d _ => ?_
  by_cases hp : d.item.placementId = e.item.placementId
  · simp only [hp, not_true_eq_false, false_or, forall_const]
    omega
  · simp [hp]

/-- Of one placement, the best are what the bucket of highest priority holds. -/
theorem filter_bestEntries (entries : List Entry) (placement : String) :
    (returnedItems (bestEntries entries)).filter (·.placementId = placement) =
      Bucket.highest (·.confirmationType.rank)
        ((returnedItems entries).filter (·.placementId = placement)) := by
  rw [Bucket.highest_eq_filter]
  simp only [returnedItems, bestEntries, List.filter_map, List.filter_filter]
  refine congrArg _ (List.filter_congr fun e _ => ?_)
  rw [Bool.eq_iff_iff]
  simp only [Function.comp_apply, Bool.and_eq_true, decide_eq_true_eq]
  constructor
  · rintro ⟨hp, hpos, hbest⟩
    refine ⟨⟨hpos, fun i hi hi0 => ?_⟩, hp⟩
    obtain ⟨d, hd, rfl⟩ := List.mem_map.1 hi
    obtain ⟨hd, hdp⟩ := List.mem_filter.1 hd
    exact hbest d hd ((of_decide_eq_true hdp).trans hp.symm) hi0
  · rintro ⟨⟨hpos, hbest⟩, hp⟩
    refine ⟨hp, hpos, fun d hd hdp hd0 => hbest d.returned (List.mem_map_of_mem ?_) hd0⟩
    exact List.mem_filter.2 ⟨hd, decide_eq_true (hdp.trans hp)⟩

/-! ## The answers of a ledger -/

/-- A ledger answers with the best entries of a range, each once and the newest first, where `give`
are the items that it gives for entries. -/
def BestAnswers (give : List Entry → List Item) (s : Session) (m : Ideal) : Prop :=
  ∀ start finish, ∃ entries, entries.Perm (bestEntries (m.span start finish)) ∧
    NewestFirst entries ∧ s.use (.best start finish) = (.ok (give entries), s)

theorem Represents.bestAnswers {s : Session} {m : Ideal} (h : Represents s m) :
    BestAnswers restoredItems s m := by
  intro first last
  refine ⟨_, List.mergeSort_perm _ _, newestFirst_mergeSort _, ?_⟩
  rw [h.use_best, inSpan_map_record, bestOf_map_record, newest_map_record, itemsOf_map_record]
  rfl

/-- A ledger gives an item back that is alone the best of its range only if its target is kept. -/
theorem targetKept_of_bestAnswers {s : Session} {m : Ideal} {i : Item} {start finish : Instant}
    (hr : BestAnswers restoredItems s m) (h : BestAnswers returnedItems s m)
    (hs : bestEntries (m.span start finish) = [Entry.ofItem i]) : i.TargetKept := by
  obtain ⟨es, hes, -, hu⟩ := h start finish
  obtain ⟨ds, hds, -, hv⟩ := hr start finish
  rw [hs, List.perm_singleton] at hes hds
  subst hes hds
  have hsame := Except.ok.inj (Prod.mk.inj (hv.symm.trans hu)).1
  have hkept : (Entry.ofItem i).item.TargetKept :=
    targetKept_of_restoredItems hsame (Entry.ofItem i) (List.mem_singleton_self _)
  exact hkept

theorem bestEntries_singleton {i : Item} (h : 0 < i.confirmationType.rank) :
    bestEntries [Entry.ofItem i] = [Entry.ofItem i] := by
  have hrank : 0 < (Entry.ofItem i).rank := h
  simp [bestEntries, hrank]

/-- The best entries of any range, in any run, are given with their targets read anew; they are
given back as they were saved, in all runs that save items of some kind, if and only if the targets
of the valid ones that have a rank are kept. Their ranks are those of the confirmation types that
the stored texts name, and for each placement they are the bucket of highest priority. -/
theorem bestAnswers_iff_targetKept (saved : Item → Prop) :
    (∀ s, placementRanking.rank (.text s) = (ConfirmationType.ofName s).rank) ∧
    (∀ entries placement, (returnedItems (bestEntries entries)).filter (·.placementId = placement) =
      Bucket.highest (·.confirmationType.rank)
        ((returnedItems entries).filter (·.placementId = placement))) ∧
    (∀ handle now uses, BestAnswers restoredItems ((Session.start handle now).after uses)
      ((Ideal.start handle).after uses)) ∧
    ((∀ handle now uses, (∀ i ∈ savedIn uses, saved i) →
      BestAnswers returnedItems ((Session.start handle now).after uses)
        ((Ideal.start handle).after uses)) ↔
      ∀ i, saved i → i.isValid = true → 0 < i.confirmationType.rank → i.TargetKept) := by
  refine ⟨rank_text, filter_bestEntries,
    fun handle now uses => (Represents.run handle now uses).bestAnswers,
    fun h i hi hv hrank => ?_, fun hk handle now uses hs start finish => ?_⟩
  · have hbest : bestEntries (((Ideal.start (.ofSettings .standard)).after [.save [i]]).span
        i.createdAt i.createdAt) = [Entry.ofItem i] := by
      rw [Ideal.span_save hv, bestEntries_singleton hrank]
    exact targetKept_of_bestAnswers
      (Represents.run (.ofSettings .standard) .epoch [.save [i]]).bestAnswers
      (h (.ofSettings .standard) .epoch [.save [i]] (forall_mem_savedIn_save hi)) hbest
  · obtain ⟨entries, hp, hn, hu⟩ := (Represents.run handle now uses).bestAnswers start finish
    refine ⟨entries, hp, hn, ?_⟩
    rw [hu, restoredItems_eq fun e he => ?_]
    obtain ⟨hspan, hbest⟩ := List.mem_filter.1 (hp.subset he)
    obtain ⟨hv, hmem⟩ := valid_and_savedIn (List.mem_of_mem_filter hspan)
    exact ⟨hv, hk e.item (hs e.item hmem) hv (of_decide_eq_true hbest).1⟩

/-! ## A placement that is lost -/

/-- A view of the placement in which the item on a drive is a click. -/
def viewOfPlacement : Item :=
  { itemOnDrive with
    confirmationType := .view
    targetUrl := some ⟨"https".toList, some ⟨[], [], "brave.com".toList, none⟩, "/".toList, none,
      none⟩ }

/-- The click is the best of its placement and is not given back, and neither is the view, which it
is preferred to. -/
theorem placement_of_itemOnDrive_lost :
    let s := (Session.start (.ofSettings .standard) .epoch).after
      [.save [itemOnDrive, viewOfPlacement]]
    let m := (Ideal.start (.ofSettings .standard)).after [.save [itemOnDrive, viewOfPlacement]]
    Url.read? "file://h//C:" = itemOnDrive.targetUrl ∧
      bestEntries (m.span .epoch .epoch) = [Entry.ofItem itemOnDrive] ∧
      s.use (.best .epoch .epoch) = (.ok [], s) ∧ ¬ BestAnswers returnedItems s m := by
  intro s m
  have hanswers : BestAnswers restoredItems s m :=
    (Represents.run _ _ _).bestAnswers
  have hspan : m.span .epoch .epoch = [Entry.ofItem itemOnDrive, Entry.ofItem viewOfPlacement] := by
    decide
  have hbest : bestEntries (m.span .epoch .epoch) = [Entry.ofItem itemOnDrive] := by
    rw [hspan]
    decide
  refine ⟨Url.read?_driveOnHost, hbest, ?_, fun h =>
    not_targetKept_itemOnDrive (targetKept_of_bestAnswers hanswers h hbest)⟩
  obtain ⟨entries, hp, -, hu⟩ := hanswers .epoch .epoch
  rw [hbest, List.perm_singleton] at hp
  rw [hu, hp, restoredItems_itemOnDrive]

end AdLedger.Store
