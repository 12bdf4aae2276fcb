import AdLedger.Proofs.Store.Placements

/-!
# Rows that are not read as valid items

Rows that something else has put into the table of events, with any values in their columns. The
queries for a range and for a creative instance return what they would return without the rows that
cannot be read. The query for the best of each placement does so unless such a row hinders one that
can be read, by a better rank in the same placement (`Unhindered`).
-/

namespace AdLedger.Store

open Sql
open Time (Instant)

/-- A row that is read as a valid item. -/
def readable (r : Record) : Bool := (itemOf r).isValid

theorem itemsOf_singleton {r : Record} (h : readable r = true) : itemsOf [r] = [itemOf r] :=
  List.filter_cons_of_pos h

/-- A row keeps another one of its placement from being among the best. -/
def outranks (other r : Record) : Bool :=
  (Record.get other 3).eq (Record.get r 3) && 0 < rankOf other && rankOf other < rankOf r

/-- A row that cannot be read outranks a row. -/
def hindered (rows : List Record) (r : Record) : Bool :=
  rows.any fun other => !readable other && outranks other r

/-- No row of a range that would be among the best without the rows that cannot be read is outranked
by one of these. -/
def Unhindered (start finish : Instant) (rows : List Record) : Prop :=
  ∀ r ∈ bestOf ((inSpan start finish rows).filter readable),
    hindered (inSpan start finish rows) r = false

/-- The database without the rows that cannot be read. -/
def cleaned (db : Database) : Database :=
  match db.table? tableName with
  | some t => db.setTable { t with rows := t.rows.filter readable }
  | none => db

variable {db : Database} {rows : List Record}

theorem holds_cleaned (h : Holds db rows) : Holds (cleaned db) (rows.filter readable) := by
  unfold cleaned
  rw [show db.table? tableName = some ⟨layout, rows⟩ from h]
  exact Database.table?_setTable_self h rfl

theorem inSpan_filter (start finish : Instant) (p : Record → Bool) (rows : List Record) :
    inSpan start finish (rows.filter p) = (inSpan start finish rows).filter p := by
  simp only [inSpan, List.filter_filter, Bool.and_comm]

/-- Sorted rows of a range are read as their readable ones are. -/
theorem itemsOf_newest {low high : Int64} (h : ∀ r ∈ rows, within low high r = true) :
    itemsOf (newest rows) = itemsOf (newest (rows.filter readable)) := by
  rw [← filter_newest h]
  exact (itemsOf_filter_valid _).symm

/-! ## Queries for a range and for a creative instance -/

theorem itemsInRange_cleaned (h : Holds db rows) (start finish : Instant) :
    ((itemsInRange start finish).on (cleaned db)).1 = ((itemsInRange start finish).on db).1 := by
  rw [itemsInRange_on h, itemsInRange_on (holds_cleaned h), inSpan_filter,
    itemsOf_newest fun r => within_of_mem_inSpan]

theorem itemsOfCreative_cleaned (h : Holds db rows) (id : String) :
    ((itemsOfCreative id).on (cleaned db)).1 = ((itemsOfCreative id).on db).1 := by
  rw [itemsOfCreative_on h, itemsOfCreative_on (holds_cleaned h)]
  refine congrArg Except.ok ?_
  rw [List.filter_comm]
  exact itemsOf_filter_valid _

/-! ## The query for the best -/

theorem bestOf_eq (rows : List Record) :
    bestOf rows = rows.filter fun r => 0 < rankOf r && rows.all fun other => !outranks other r :=
  rfl

/-- The readable ones among the best are the best of the readable ones, save those that are
hindered. -/
theorem filter_bestOf (rows : List Record) :
    (bestOf rows).filter readable =
      (bestOf (rows.filter readable)).filter fun r => !hindered rows r := by
  simp only [bestOf_eq, List.filter_filter]
  refine List.filter_congr fun r _ => ?_
  rw [Bool.eq_iff_iff]
  simp only [hindered, Bool.and_eq_true, decide_eq_true_eq, List.all_eq_true, Bool.not_eq_true',
    List.mem_filter, List.any_eq_false, and_imp]
  constructor
  · rintro ⟨hr, hpos, hall⟩
    refine ⟨fun other ho hout => ?_, ⟨hpos, fun other ho _ => hall other ho⟩, hr⟩
    exact Bool.false_ne_true ((hall other ho).symm.trans hout.2)
  · rintro ⟨hnone, ⟨hpos, hall⟩, hr⟩
    refine ⟨hr, hpos, fun other ho => ?_⟩
    cases hread : readable other with
    | true => exact hall other ho hread
    | false => exact Bool.eq_false_iff.2 fun hout => hnone other ho ⟨hread, hout⟩

theorem length_itemsOf_newest (h : ∀ r ∈ rows, readable r = true) :
    (itemsOf (newest rows)).length = rows.length := by
  have hall : ∀ r ∈ newest rows, readable r = true :=
    fun r hr => h r ((List.mergeSort_perm _ _).subset hr)
  have hitems : itemsOf (newest rows) = (newest rows).map itemOf := by
    refine List.filter_eq_self.2 fun i hi => ?_
    obtain ⟨r, hr, rfl⟩ := List.mem_map.1 hi
    exact hall r hr
  rw [hitems, List.length_map]
  exact List.length_mergeSort _

/-- The best items are returned as they are without the rows that cannot be read if and only if none
of these hinders a row. -/
theorem bestInRange_cleaned_iff (h : Holds db rows) (start finish : Instant) :
    ∃ items without, ((bestInRange start finish).on db).1 = .ok items ∧
      ((bestInRange start finish).on (cleaned db)).1 = .ok without ∧
      (items.Perm without ↔ Unhindered start finish rows) ∧
      (Unhindered start finish rows → items = without) := by
  have hbest : itemsOf (newest (bestOf (inSpan start finish rows))) =
      itemsOf (newest ((bestOf ((inSpan start finish rows).filter readable)).filter fun r =>
        !hindered (inSpan start finish rows) r)) := by
    rw [← filter_bestOf]
    exact itemsOf_newest fun r hr => within_of_mem_inSpan (mem_of_mem_bestOf hr)
  have hread : ∀ r ∈ bestOf ((inSpan start finish rows).filter readable), readable r = true :=
    fun r hr => (List.mem_filter.1 (mem_of_mem_bestOf hr)).2
  have heq : Unhindered start finish rows → itemsOf (newest (bestOf (inSpan start finish rows))) =
      itemsOf (newest (bestOf ((inSpan start finish rows).filter readable))) := by
    intro hu
    rw [hbest, List.filter_eq_self.2 fun r hr => by rw [hu r hr]; rfl]
  refine ⟨_, _, congrArg Prod.fst (bestInRange_on h start finish),
    congrArg Prod.fst (bestInRange_on (holds_cleaned h) start finish), ⟨fun hp r hr => ?_, ?_⟩, ?_⟩
  · -- A row that is hindered is missed: what is left over is shorter.
    have hlen := hp.length_eq
    rw [inSpan_filter, hbest, length_itemsOf_newest hread,
      length_itemsOf_newest fun r hr => hread r (List.mem_of_mem_filter hr)] at hlen
    simpa using List.length_filter_eq_length_iff.1 hlen r hr
  · intro hu
    rw [inSpan_filter, heq hu]
  · intro hu
    rw [inSpan_filter, heq hu]

/-- Rows that cannot be read make no difference to what is returned for a range or for a creative
instance. They make none to the best of a range, up to the order of the items, if and only if they
hinder no row. -/
theorem unreadable_rows_invisible_iff (h : Holds db rows) :
    (∀ start finish,
      ((itemsInRange start finish).on (cleaned db)).1 = ((itemsInRange start finish).on db).1) ∧
    (∀ id, ((itemsOfCreative id).on (cleaned db)).1 = ((itemsOfCreative id).on db).1) ∧
    ∀ start finish, ∃ items without, ((bestInRange start finish).on db).1 = .ok items ∧
      ((bestInRange start finish).on (cleaned db)).1 = .ok without ∧
      (items.Perm without ↔ Unhindered start finish rows) ∧
      (Unhindered start finish rows → items = without) :=
  ⟨itemsInRange_cleaned h, itemsOfCreative_cleaned h, bestInRange_cleaned_iff h⟩

/-! ## A view that is hidden -/

def viewRow : Record := (Entry.ofItem viewOfPlacement).record

/-- A row that says it is a click of the same placement, but has no URL for its target. -/
def unreadableClick : Record := (viewRow.set 2 (.text "click")).set 11 (.text "nope")

def hidingView : Database := ⟨[⟨layout, [unreadableClick, viewRow]⟩], []⟩

theorem holds_hidingView : Holds hidingView [unreadableClick, viewRow] :=
  List.find?_cons_of_pos (sameName_refl _)

theorem targetKept_viewOfPlacement : viewOfPlacement.TargetKept := by
  have htext : viewOfPlacement.targetText = "https://brave.com/" := by cbv
  have hread : Url.read? "https://brave.com/" = viewOfPlacement.targetUrl := by cbv
  unfold Item.TargetKept
  rw [htext, hread]

theorem itemOf_viewRow : itemOf viewRow = viewOfPlacement := by
  have hkept : (Entry.ofItem viewOfPlacement).item.TargetKept := targetKept_viewOfPlacement
  rw [viewRow, itemOf_record, Entry.restored_eq_returned_iff.2 hkept]
  rfl

theorem readable_viewRow : readable viewRow = true := by
  rw [readable, itemOf_viewRow]
  decide

theorem not_readable_unreadableClick : readable unreadableClick = false := by
  have htarget : (itemOf unreadableClick).targetUrl = none := by
    have hread : Url.read? "nope" = none := by cbv
    exact hread
  simp [readable, Item.isValid, htarget]

theorem view_hidden :
    ((bestInRange .epoch .epoch).on hidingView).1 = .ok [] ∧
      ((bestInRange .epoch .epoch).on (cleaned hidingView)).1 = .ok [viewOfPlacement] := by
  have hspan : inSpan .epoch .epoch [unreadableClick, viewRow] = [unreadableClick, viewRow] := by
    decide
  have hbest : bestOf [unreadableClick, viewRow] = [unreadableClick] := by decide
  have hview : bestOf [viewRow] = [viewRow] := by decide
  have hread : [unreadableClick, viewRow].filter readable = [viewRow] := by
    simp [not_readable_unreadableClick, readable_viewRow]
  constructor
  · rw [bestInRange_on holds_hidingView, hspan, hbest, newest, List.mergeSort_singleton, itemsOf]
    have hinvalid : (itemOf unreadableClick).isValid = false := not_readable_unreadableClick
    simp [hinvalid]
  · rw [bestInRange_on (holds_cleaned holds_hidingView), inSpan_filter, hspan, hread, hview, newest,
      List.mergeSort_singleton, itemsOf, List.map_singleton, itemOf_viewRow,
      List.filter_cons_of_pos (by decide), List.filter_nil]

theorem unreadable_rows_hidingView :
    Holds hidingView [unreadableClick, viewRow] ∧
    (∀ start finish, ((itemsInRange start finish).on (cleaned hidingView)).1 =
      ((itemsInRange start finish).on hidingView).1) ∧
    (∀ id, ((itemsOfCreative id).on (cleaned hidingView)).1 =
      ((itemsOfCreative id).on hidingView).1) ∧
    ∀ start finish, ∃ items without, ((bestInRange start finish).on hidingView).1 = .ok items ∧
      ((bestInRange start finish).on (cleaned hidingView)).1 = .ok without ∧
      (items.Perm without ↔ Unhindered start finish [unreadableClick, viewRow]) ∧
      (Unhindered start finish [unreadableClick, viewRow] → items = without) :=
  ⟨holds_hidingView, unreadable_rows_invisible_iff holds_hidingView⟩

end AdLedger.Store
