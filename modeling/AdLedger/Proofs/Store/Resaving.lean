import AdLedger.Proofs.Store.Mistyped

/-!
# Items that are read and saved again

What is read from a row, of any length and with anything in its columns, is an item at a whole time
(`returned_decode`). Written as a row and read once more it is the same but for its target, which is
what the text of the target is read as (`decode_encode_decode`). So the items that a query gives can
be saved again as rows that each query gives the same items for, wherever it selects them, as far as
the texts of their targets are read as these (`givenFor_iff`).
-/

namespace AdLedger.Store

open Sql
open Time (Instant)

/-! ## One item -/

/-- A value has the type of a column. -/
inductive OfType : Scalar → ColumnType → Prop
  | int (n : Int64) : OfType (.int n) .int
  | text (s : String) : OfType (.text s) .text

theorem encode_ofType (i : Item) : List.Forall₂ OfType (encode i) columnTypes := by
  simp only [encode, columnTypes, columns, List.map_cons, List.map_nil, List.forall₂_cons,
    OfType.int, OfType.text, List.Forall₂.nil, and_self]

/-- The time of an item that has been read is whole, so that its word says it. -/
theorem returned_decode (r : Row) : (Entry.ofItem (decode r)).returned = decode r :=
  stored_eq_self_iff.2 (Instant.whole_ofPlatform _)

/-- An item that has been read is read again from its own values, but for its target. -/
theorem decode_encode_decode (r : Row) : decode ((encode (decode r)).map some) =
    { decode r with targetUrl := Url.read? (decode r).targetText } := by
  have hitem : (Entry.ofItem (decode r)).item = decode r := rfl
  rw [decode_encode_eq_restored, Entry.restored, returned_decode, hitem]

theorem decode_encode_decode_iff {r : Row} :
    decode ((encode (decode r)).map some) = decode r ↔
      ∀ url ∈ (decode r).targetUrl, Url.read? url.text = some url := by
  have hkept : (Entry.ofItem (decode r)).restored = (Entry.ofItem (decode r)).returned ↔
      (decode r).TargetKept := Entry.restored_eq_returned_iff
  rw [decode_encode_eq_restored, ← Item.targetKept_iff, ← hkept, returned_decode]

/-! ## The items of a query -/

/-- Whatever table a row is in, a query that selects it gives the item in its place. -/
def GivenFor (r : Record) (i : Item) : Prop :=
  ∀ db rows (q : Query) before after, Holds db rows → q.selected rows = before ++ r :: after →
    q.work.on db = (.ok (itemsOf before ++ i :: itemsOf after), db)

/-- A row is found by the creative instance of its item also where it is alone, and what is given
for it there is given for it everywhere. -/
theorem givenFor_record_iff {i : Item} :
    GivenFor (Entry.ofItem i).record i ↔ itemsOf [(Entry.ofItem i).record] = [i] := by
  constructor
  · intro h
    let db : Database := ⟨[⟨layout, [(Entry.ofItem i).record]⟩], []⟩
    have hholds : Holds db [(Entry.ofItem i).record] := List.find?_cons_of_pos (sameName_refl _)
    have hselected : (Query.ofCreative i.creativeInstanceId).selected [(Entry.ofItem i).record] =
        [(Entry.ofItem i).record] := filter_creative_record i
    have hgiven := h db _ (.ofCreative i.creativeInstanceId) [] [] hholds hselected
    rw [Query.work_on hholds, hselected] at hgiven
    exact Except.ok.inj (Prod.mk.inj hgiven).1
  · intro h db rows q before after hholds hselected
    rw [Query.work_on hholds, hselected, ← List.singleton_append, itemsOf_append, itemsOf_append, h]
    rfl

theorem isValid_of_mem_itemsOf {rows : List Record} {i : Item} (h : i ∈ itemsOf rows) :
    i.isValid = true :=
  (List.mem_filter.1 h).2

/-- The row of an item that a query gives is read as just that item if and only if the text of its
target is read as the target. -/
theorem givenFor_iff {rows : List Record} {i : Item} (h : i ∈ itemsOf rows) :
    GivenFor (Entry.ofItem i).record i ↔ ∀ url ∈ i.targetUrl, Url.read? url.text = some url := by
  obtain ⟨r, -, rfl⟩ := List.mem_map.1 (List.mem_of_mem_filter h)
  have htime : (itemOf r).createdAt.Whole := Instant.whole_ofPlatform _
  rw [givenFor_record_iff, itemsOf_record_eq_iff (isValid_of_mem_itemsOf h), ← Item.targetKept_iff]
  exact and_iff_left htime

/-- Saving the items of a query adds a row for each of them. -/
theorem exists_saved {db : Database} {rows : List Record} (h : Holds db rows) (q : Query)
    (settings : Settings) : ∃ items saved, q.work.on db = (.ok items, db) ∧
      items = itemsOf (q.selected rows) ∧ (save settings items).on db = (.ok (), saved) ∧
      Holds saved (rows ++ items.map fun i => (Entry.ofItem i).record) := by
  have hentries : entriesOf (itemsOf (q.selected rows)) =
      (itemsOf (q.selected rows)).map Entry.ofItem := by
    rw [entriesOf, List.filter_eq_self.2 fun i => isValid_of_mem_itemsOf]
  obtain ⟨saved, hsave, hholds, -⟩ := save_on h settings (itemsOf (q.selected rows))
  rw [hentries, List.map_map] at hholds
  exact ⟨_, saved, q.work_on h, rfl, hsave, hholds⟩

/-- What is read from a row, whatever the row is, has values of the types of the columns, and it is
read from these values as the same item if and only if the text of its target is read as the target;
nothing else of it can change. When the items that a query gives are saved again, a row is added for
each of them, and every query of any table gives that item for the row, under the same condition. -/
theorem decoded_items_stable :
    (∀ r : Row, List.Forall₂ OfType (encode (decode r)) columnTypes ∧
      decode ((encode (decode r)).map some) =
        { decode r with targetUrl := Url.read? (decode r).targetText } ∧
      (decode ((encode (decode r)).map some) = decode r ↔
        ∀ url ∈ (decode r).targetUrl, Url.read? url.text = some url)) ∧
    ∀ db rows (q : Query) (settings : Settings), Holds db rows →
      ∃ items saved, q.work.on db = (.ok items, db) ∧
        (save settings items).on db = (.ok (), saved) ∧
        Holds saved (rows ++ items.map fun i => (Entry.ofItem i).record) ∧
        ∀ i ∈ items, GivenFor (Entry.ofItem i).record i ↔
          ∀ url ∈ i.targetUrl, Url.read? url.text = some url := by
  refine ⟨fun r => ⟨encode_ofType _, decode_encode_decode r, decode_encode_decode_iff⟩, ?_⟩
  intro db rows q settings h
  obtain ⟨items, saved, hquery, rfl, hsave, hholds⟩ := exists_saved h q settings
  exact ⟨_, saved, hquery, hsave, hholds, fun i hi => givenFor_iff hi⟩

/-- A row of a single text is read as an item without anything, and so it is again. A view without a
time is given as one of the year 1601; saved again it has a time, and is given as it was. -/
theorem untimed_view_stable :
    let view : Item := { viewOfPlacement with createdAt := startOf1601 }
    decode ((encode (decode [some (.text "nope")])).map some) = decode [some (.text "nope")] ∧
    Holds untimedView [untimedRow] ∧
    ∃ saved, (Query.ofCreative "c").work.on untimedView = (.ok [view], untimedView) ∧
      (save .standard [view]).on untimedView = (.ok (), saved) ∧
      Holds saved [untimedRow, (Entry.ofItem view).record] ∧
      GivenFor (Entry.ofItem view).record view := by
  intro view
  obtain ⟨hrows, hsaved⟩ := decoded_items_stable
  have hnone : ∀ url ∈ (decode [some (.text "nope")]).targetUrl, Url.read? url.text = some url := by
    have hempty : (decode [some (.text "nope")]).targetUrl = none := Url.read?_empty
    rw [hempty]
    exact nofun
  have hview : (itemsOfCreative "c").on untimedView = (.ok [view], untimedView) :=
    untimed_view_returned.2.2
  obtain ⟨items, saved, hquery, hsave, hholds, hgiven⟩ :=
    hsaved untimedView [untimedRow] (.ofCreative "c") .standard holds_untimedView
  obtain rfl : items = [view] := Except.ok.inj (Prod.mk.inj (hquery.symm.trans hview)).1
  have hkept : view.TargetKept := targetKept_viewOfPlacement
  exact ⟨(hrows _).2.2.2 hnone, holds_untimedView, saved, hquery, hsave, hholds,
    (hgiven view (List.mem_singleton_self _)).2 (Item.targetKept_iff.1 hkept)⟩

end AdLedger.Store
