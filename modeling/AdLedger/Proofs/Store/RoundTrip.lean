import AdLedger.Proofs.Store.Corruption
import AdLedger.Proofs.Time.Platform

/-!
# Items through rows

What is left of items that are written as rows and read again. A row keeps everything of an item but
the exact time: what is left of that is what its word is read as. The target is kept where its text
is read as the URL that it is the text of. The values of a list of items, cut into rows, give the
valid ones of them in their order.
-/

namespace AdLedger

/-- The item at the time that its row says. -/
def Item.stored (i : Item) : Item := { i with createdAt := .ofPlatform i.createdAt.toPlatform }

theorem Url.read?_empty : Url.read? "" = none := by cbv

/-- Without a target nothing is asked: no URL has an empty text. -/
theorem Item.targetKept_iff {i : Item} :
    i.TargetKept ↔ ∀ url ∈ i.targetUrl, Url.read? url.text = some url := by
  unfold Item.TargetKept Item.targetText
  cases i.targetUrl with
  | none => simp [Url.read?_empty]
  | some url => simp

namespace Store

open Sql

/-- Values cut into rows. -/
def rowsOf (values : List Scalar) : List Row := (batches columns.length values).map (List.map some)

theorem batches_append {α : Type} {size : Nat} {b : List α} (pos : 0 < size) (h : b.length = size)
    (rest : List α) : batches size (b ++ rest) = b :: batches size rest := by
  cases b with
  | nil => exact absurd h (Nat.ne_of_lt pos)
  | cons x b =>
    have hlen : size - 1 = b.length := by
      rw [← h]
      rfl
    rw [List.cons_append, batches, hlen, List.take_left, List.drop_left]

/-- What is put together from parts of one size is cut into these parts. -/
theorem batches_flatMap {α β : Type} {size : Nat} {f : α → List β} (pos : 0 < size)
    (h : ∀ a, (f a).length = size) (xs : List α) : batches size (xs.flatMap f) = xs.map f := by
  induction xs with
  | nil => rw [List.flatMap_nil, batches, List.map_nil]
  | cons x xs ih => rw [List.flatMap_cons, batches_append pos (h x), ih, List.map_cons]

theorem rowsOf_encodeValid (items : List Item) :
    rowsOf (encodeValid items) = (items.filter Item.isValid).map fun i => (encode i).map some := by
  have hlen : ∀ i, (encode i).length = columns.length := fun _ => rfl
  have hcut : batches columns.length (encodeValid items) = (items.filter Item.isValid).map encode :=
    batches_flatMap (by decide) hlen _
  rw [rowsOf, hcut, List.map_map]
  rfl

/-- The values of an item are what a query returns from its row. -/
theorem readRow_record_ofItem (i : Item) :
    readRow (Entry.ofItem i).record = (encode i).map some := by
  simp [readRow, Entry.ofItem, Entry.record, encode, columnTypes, columns, List.range,
    List.range.loop, Record.get, ColumnType.cell, Scalar.toValue]

theorem decode_encode_eq_restored (i : Item) :
    decode ((encode i).map some) = (Entry.ofItem i).restored := by
  rw [← readRow_record_ofItem]
  exact itemOf_record _

theorem decode_encode {i : Item} (h : i.TargetKept) : decode ((encode i).map some) = i.stored :=
  (decode_encode_eq_restored i).trans (Entry.restored_eq_returned_iff.2 h)

theorem isValid_stored (i : Item) : i.stored.isValid = i.isValid :=
  (Entry.ofItem i).isValid_returned

theorem stored_eq_self_iff {i : Item} : i.stored = i ↔ i.createdAt.Whole := by
  rw [← Time.Instant.ofPlatform_toPlatform_eq_self_iff]
  constructor
  · intro h
    exact congrArg Item.createdAt h
  · intro h
    unfold Item.stored
    rw [h]

theorem itemsOf_record (i : Item) :
    itemsOf [(Entry.ofItem i).record] = restoredItems [Entry.ofItem i] :=
  itemsOf_map_record [Entry.ofItem i]

/-- Where the target is kept, only the time of an item is another one when it is found again. -/
theorem itemsOf_record_of_targetKept {i : Item} (hv : i.isValid = true) (hk : i.TargetKept) :
    itemsOf [(Entry.ofItem i).record] = [i.stored] := by
  have hrestored : (Entry.ofItem i).restored = i.stored := Entry.restored_eq_returned_iff.2 hk
  rw [itemsOf_record, restoredItems, List.map_singleton, hrestored]
  exact List.filter_cons_of_pos ((isValid_stored i).trans hv)

/-- An item is found again from its own row just where nothing of it is lost on the way. -/
theorem itemsOf_record_eq_iff {i : Item} (hv : i.isValid = true) :
    itemsOf [(Entry.ofItem i).record] = [i] ↔ i.TargetKept ∧ i.createdAt.Whole := by
  constructor
  · intro h
    rw [itemsOf_record, restoredItems, List.map_singleton] at h
    have hmem : i ∈ [(Entry.ofItem i).restored].filter Item.isValid := h ▸ List.mem_singleton_self i
    have hsame : (Entry.ofItem i).restored = i :=
      (List.mem_singleton.1 (List.mem_of_mem_filter hmem)).symm
    have htime : i.createdAt.Whole :=
      Time.Instant.ofPlatform_toPlatform_eq_self_iff.1 (congrArg Item.createdAt hsame)
    have htarget : (Entry.ofItem i).item.TargetKept :=
      Entry.restored_eq_returned_iff.1 (hsame.trans (stored_eq_self_iff.2 htime).symm)
    exact ⟨htarget, htime⟩
  · rintro ⟨htarget, htime⟩
    rw [itemsOf_record_of_targetKept hv htarget, stored_eq_self_iff.2 htime]

theorem decodeValid_rowsOf {items : List Item} (h : ∀ i ∈ items, i.TargetKept) :
    decodeValid (rowsOf (encodeValid items)) = (items.filter Item.isValid).map Item.stored := by
  have hdecode : (rowsOf (encodeValid items)).map decode =
      (items.filter Item.isValid).map Item.stored := by
    rw [rowsOf_encodeValid, List.map_map]
    exact List.map_congr_left fun i hi => decode_encode (h i (List.mem_of_mem_filter hi))
  rw [decodeValid, hdecode, List.filter_eq_self]
  intro j hj
  obtain ⟨i, hi, rfl⟩ := List.mem_map.1 hj
  rw [isValid_stored]
  exact (List.mem_filter.1 hi).2

theorem length_rowsOf (items : List Item) :
    (rowsOf (encodeValid items)).length = (items.filter Item.isValid).length := by
  rw [rowsOf_encodeValid, List.length_map]

theorem insertBatch_eq (items : List Item) :
    insertBatch items =
      if (rowsOf (encodeValid items)).length = 0 then none
      else some (.run (insertRows (rowsOf (encodeValid items)).length) (encodeValid items)) := by
  simp only [length_rowsOf, insertBatch, List.isEmpty_iff, List.length_eq_zero_iff]

/-- Where the text of each target is read as that target, an item is read from its own values as it
was, but for its time: that is the one its word is read as, and it is the same if and only if it was
whole. The rows written for a list of items are read as the valid ones among these, in their order,
and a batch is inserted as that many rows. -/
theorem items_read_from_rows (items : List Item)
    (h : ∀ i ∈ items, ∀ url ∈ i.targetUrl, Url.read? url.text = some url) :
    (∀ i ∈ items,
      decode ((encode i).map some) = { i with createdAt := .ofPlatform i.createdAt.toPlatform } ∧
      ((decode ((encode i).map some)).isValid = true ↔ i.isValid = true) ∧
      (decode ((encode i).map some) = i ↔
        i.createdAt.nano % 1000 = 0 ∧ ¬ i.createdAt.InLeapSecond)) ∧
    decodeValid (rowsOf (encodeValid items)) = (items.filter Item.isValid).map Item.stored ∧
    (rowsOf (encodeValid items)).length = (items.filter Item.isValid).length ∧
    insertBatch items =
      if (rowsOf (encodeValid items)).length = 0 then none
      else some (.run (insertRows (rowsOf (encodeValid items)).length) (encodeValid items)) := by
  have hkept : ∀ i ∈ items, i.TargetKept := fun i hi => Item.targetKept_iff.2 (h i hi)
  refine ⟨fun i hi => ?_, decodeValid_rowsOf hkept, length_rowsOf items, insertBatch_eq items⟩
  rw [decode_encode (hkept i hi), isValid_stored]
  exact ⟨rfl, Iff.rfl, stored_eq_self_iff⟩

/-- A view in the leap second at the end of the first minute of 1970, some nanoseconds after its
half. -/
def viewInLeapSecond : Item :=
  { viewOfPlacement with
    createdAt := ⟨59, 1500000001, by decide, by decide, by decide⟩ }

/-- An event of no type. -/
def untypedEvent : Item := { viewOfPlacement with confirmationType := .undefined }

theorem views_read_from_rows :
    decode ((encode viewInLeapSecond).map some) ≠ viewInLeapSecond ∧
    decode ((encode untypedEvent).map some) = untypedEvent ∧
    decodeValid (rowsOf (encodeValid [viewInLeapSecond, untypedEvent, viewOfPlacement])) =
      [{ viewOfPlacement with
        createdAt := ⟨60, 500000000, by decide, by decide, by decide⟩ },
       viewOfPlacement] := by
  have hkept : ∀ i ∈ [viewInLeapSecond, untypedEvent, viewOfPlacement], ∀ url ∈ i.targetUrl,
      Url.read? url.text = some url := by
    have hview := Item.targetKept_iff.1 targetKept_viewOfPlacement
    intro i hi
    simp only [List.mem_cons, List.not_mem_nil, or_false] at hi
    obtain rfl | rfl | rfl := hi <;> exact hview
  obtain ⟨hitems, hrows, -⟩ := items_read_from_rows _ hkept
  refine ⟨fun heq => ?_, (hitems untypedEvent (by simp)).2.2.2 (by decide), hrows.trans rfl⟩
  exact absurd ((hitems viewInLeapSecond (by simp)).2.2.1 heq) (by decide)

end Store
end AdLedger
