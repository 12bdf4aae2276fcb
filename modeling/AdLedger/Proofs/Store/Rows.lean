import AdLedger.Proofs.Sql.Ordering
import AdLedger.Store.Ledger

/-!
# Items among rows

An item is kept as a row with a time (`Entry`). The row is read as an item that says the same, apart
from two things: its time is the one that was kept, and its target is what the text of the target
reads as (`itemOf_record`). So a row gives its item back if and only if the text of the
target reads as the target (`Item.TargetKept`).
-/

namespace AdLedger

/-- The target is what its own text reads as. -/
def Item.TargetKept (i : Item) : Prop := Url.read? i.targetText = i.targetUrl

namespace Store

open Sql Time

/-- An item in the ledger, and the time under which it is kept. -/
structure Entry where
  time : Int64
  item : Item
  deriving DecidableEq

namespace Entry

/-- The entry for an item that is saved. -/
def ofItem (i : Item) : Entry := ⟨i.createdAt.toPlatform, i⟩

/-- The item as it was saved, at the time under which it is kept. -/
def returned (e : Entry) : Item := { e.item with createdAt := .ofPlatform e.time }

/-- The item with the target that its text reads as. -/
def restored (e : Entry) : Item := { e.returned with targetUrl := Url.read? e.item.targetText }

def record (e : Entry) : Record := .integer e.time :: (encode e.item).tail.map Scalar.toValue

@[simp] theorem length_record (e : Entry) : e.record.length = columns.length := rfl

@[simp] theorem time_record (e : Entry) : Record.get e.record 0 = .integer e.time := rfl

@[simp] theorem confirmation_record (e : Entry) :
    Record.get e.record 2 = .text e.item.confirmationType.name := rfl

@[simp] theorem placement_record (e : Entry) :
    Record.get e.record 3 = .text e.item.placementId := rfl

@[simp] theorem creative_record (e : Entry) :
    Record.get e.record 4 = .text e.item.creativeInstanceId := rfl

theorem ne_null_of_mem_record {e : Entry} {v : Value} (h : v ∈ e.record) : v ≠ .null := by
  obtain rfl | h := List.mem_cons.1 h
  · exact nofun
  · obtain ⟨s, -, rfl⟩ := List.mem_map.1 h
    cases s <;> exact nofun

theorem restored_eq_returned_iff {e : Entry} : e.restored = e.returned ↔ e.item.TargetKept := by
  constructor
  · intro h
    exact congrArg Item.targetUrl h
  · intro h
    simp only [restored, show Url.read? e.item.targetText = e.item.targetUrl from h]
    rfl

@[simp] theorem isValid_returned (e : Entry) : e.returned.isValid = e.item.isValid := by
  unfold Item.isValid returned
  rfl

end Entry

/-! ## Reading rows -/

/-- A stored row as a query for all columns returns it. -/
def readRow (r : Record) : Row :=
  List.zipWith ColumnType.cell columnTypes ((List.range columns.length).map r.get)

def itemOf (r : Record) : Item := decode (readRow r)

/-- The valid items of stored rows. -/
def itemsOf (rows : List Record) : List Item := (rows.map itemOf).filter Item.isValid

theorem decodeValid_map_readRow (rows : List Record) :
    decodeValid (rows.map readRow) = itemsOf rows := by
  rw [decodeValid, List.map_map]
  rfl

/-- The row of an entry is read as the item, its target read anew. -/
@[simp] theorem itemOf_record (e : Entry) : itemOf e.record = e.restored := by
  obtain ⟨time, i⟩ := e
  simp [itemOf, readRow, Entry.record, Entry.restored, Entry.returned, encode, decode, columnTypes,
    columns, List.range, List.range.loop, Record.get, ColumnType.cell, Scalar.toValue, intAt,
    textAt]

theorem itemsOf_filter_valid (rows : List Record) :
    itemsOf (rows.filter fun r => (itemOf r).isValid) = itemsOf rows := by
  simp [itemsOf, List.filter_map, Function.comp_def]

theorem itemsOf_append (rows more : List Record) :
    itemsOf (rows ++ more) = itemsOf rows ++ itemsOf more := by
  rw [itemsOf, List.map_append, List.filter_append]
  rfl

theorem itemsOf_map_record (entries : List Entry) :
    itemsOf (entries.map Entry.record) = (entries.map Entry.restored).filter Item.isValid := by
  rw [itemsOf, List.map_map]
  congr 1
  exact List.map_congr_left fun e _ => itemOf_record e

/-- Rows of entries that pass a test are the rows of those entries that pass it. -/
theorem filter_map_record {p : Record → Bool} {q : Entry → Bool} {entries : List Entry}
    (h : ∀ e ∈ entries, p e.record = q e) :
    (entries.map Entry.record).filter p = (entries.filter q).map Entry.record := by
  rw [List.filter_map]
  exact congrArg _ (List.filter_congr h)

/-- The row of an item is among those of its creative instance. -/
theorem filter_creative_record (i : Item) : [(Entry.ofItem i).record].filter
    (fun r => (r.get 4).eq (.text i.creativeInstanceId)) = [(Entry.ofItem i).record] := by
  refine List.filter_cons_of_pos ?_
  rw [Entry.creative_record, Value.text_eq_text]
  exact decide_eq_true rfl

/-! ## Times of rows -/

/-- Whether the time of a row lies between two times. -/
def within (low high : Int64) (r : Record) : Bool :=
  (Value.integer low).le (r.get 0) && (r.get 0).le (.integer high)

/-- Rows with the newest first. -/
def newest (rows : List Record) : List Record :=
  rows.mergeSort fun r s => (r.get 0).compare (s.get 0) != .lt

@[simp] theorem within_record (low high : Int64) (e : Entry) :
    within low high e.record = (decide (low ≤ e.time) && decide (e.time ≤ high)) := by
  simp [within, Value.integer_le_integer]

/-- The time of a row as a number; rows whose time is none are not in any range. -/
def timeOf (r : Record) : ℚ := (r.get 0).magnitude?.getD 0

theorem compare_ne_lt_iff {r s : Record} {low high : Int64} (hr : within low high r = true)
    (hs : within low high s = true) :
    (r.get 0).compare (s.get 0) ≠ .lt ↔ timeOf s ≤ timeOf r := by
  have hr := Bool.and_eq_true_iff.1 hr
  have hs := Bool.and_eq_true_iff.1 hs
  obtain ⟨x, hx⟩ := Option.isSome_iff_exists.1 (Value.magnitude?_of_le_le hr.1 hr.2)
  obtain ⟨y, hy⟩ := Option.isSome_iff_exists.1 (Value.magnitude?_of_le_le hs.1 hs.2)
  have hne := Value.compare_ne_lt hx hy
  rw [Bool.eq_iff_iff, bne_iff_ne, decide_eq_true_iff] at hne
  simpa [timeOf, hx, hy] using hne

theorem newest_eq_mergeSort {rows : List Record} {low high : Int64}
    (h : ∀ r ∈ rows, within low high r = true) :
    newest rows = rows.mergeSort fun r s => decide (timeOf s ≤ timeOf r) := by
  have key : ∀ r ∈ rows, ∀ s ∈ rows,
      ((r.get 0).compare (s.get 0) != .lt) = decide (timeOf s ≤ timeOf r) := by
    intro r hr s hs
    rw [Bool.eq_iff_iff, bne_iff_ne, decide_eq_true_iff]
    exact compare_ne_lt_iff (h r hr) (h s hs)
  have hmap : (newest rows).map id =
      (rows.map id).mergeSort fun r s => decide (timeOf s ≤ timeOf r) := List.map_mergeSort key
  rwa [List.map_id, List.map_id] at hmap

theorem notOlder_trans (r s t : Record) (hrs : decide (timeOf s ≤ timeOf r) = true)
    (hst : decide (timeOf t ≤ timeOf s) = true) : decide (timeOf t ≤ timeOf r) = true := by
  simp only [decide_eq_true_eq] at hrs hst ⊢
  exact hst.trans hrs

theorem notOlder_total (r s : Record) :
    (decide (timeOf s ≤ timeOf r) || decide (timeOf r ≤ timeOf s)) = true := by
  simpa using le_total (timeOf s) (timeOf r)

/-- It does not matter whether rows of a range are left out before or after they are sorted. -/
theorem filter_newest {rows : List Record} {low high : Int64}
    (h : ∀ r ∈ rows, within low high r = true) (p : Record → Bool) :
    (newest rows).filter p = newest (rows.filter p) := by
  rw [newest_eq_mergeSort h,
    newest_eq_mergeSort fun r hr => h r (List.mem_of_mem_filter hr)]
  exact filter_mergeSort notOlder_trans notOlder_total p rows

/-! ### Orders that agree up to ties -/

/-- Rows in an order in which none comes after an older one. -/
def Descending (rows : List Record) : Prop :=
  rows.Pairwise fun r s => (r.get 0).compare (s.get 0) ≠ .lt

/-- The same rows in orders that differ in the places of rows of equal times only. -/
structure UpToTies (xs ys : List Record) : Prop where
  perm : xs.Perm ys
  times : xs.map timeOf = ys.map timeOf

theorem descending_iff {rows : List Record} {low high : Int64}
    (h : ∀ r ∈ rows, within low high r = true) :
    Descending rows ↔ rows.Pairwise fun r s => timeOf s ≤ timeOf r :=
  List.Pairwise.iff_of_mem fun hr hs => compare_ne_lt_iff (h _ hr) (h _ hs)

theorem newest_perm (rows : List Record) : (newest rows).Perm rows := List.mergeSort_perm _ _

theorem descending_newest {rows : List Record} {low high : Int64}
    (h : ∀ r ∈ rows, within low high r = true) : Descending (newest rows) := by
  rw [descending_iff fun r hr => h r ((newest_perm rows).subset hr), newest_eq_mergeSort h]
  exact (List.pairwise_mergeSort notOlder_trans notOlder_total rows).imp of_decide_eq_true

/-- All orders of the rows of a range in which none comes after an older one agree up to ties. -/
theorem Descending.upToTies_newest {rows answer : List Record} {low high : Int64}
    (h : ∀ r ∈ rows, within low high r = true) (hdesc : Descending answer)
    (hperm : answer.Perm rows) : UpToTies answer (newest rows) := by
  have hsame : answer.Perm (newest rows) := hperm.trans (newest_perm rows).symm
  have hnewest := descending_newest h
  rw [descending_iff fun r hr => h r (hperm.subset hr)] at hdesc
  rw [descending_iff fun r hr => h r ((newest_perm rows).subset hr)] at hnewest
  exact ⟨hsame, (hsame.map timeOf).eq_of_pairwise (fun a b _ _ hab hba => le_antisymm hba hab)
    (List.pairwise_map.2 hdesc) (List.pairwise_map.2 hnewest)⟩

/-- The rows of entries, the newest first, are those of the entries sorted by their times. -/
theorem newest_map_record (entries : List Entry) :
    newest (entries.map Entry.record) =
      (entries.mergeSort fun d e => decide (e.time ≤ d.time)).map Entry.record := by
  refine (List.map_mergeSort fun d _ e _ => ?_).symm
  have hd : (Record.get d.record 0).magnitude? = some (d.time.toInt : ℚ) := rfl
  have he : (Record.get e.record 0).magnitude? = some (e.time.toInt : ℚ) := rfl
  rw [Value.compare_ne_lt hd he]
  exact decide_eq_decide.2 (Int64.le_iff_toInt_le.trans Int.cast_le.symm)

end Store

end AdLedger
