import AdLedger.Proofs.Store.RoundTrip

/-!
# Rows with columns missing or of another type

A row of any length, with anything in its columns. The columns that an item needs as texts are
checked one by one (`checks`), and each check refuses the empty text that stands for what is
missing; so a row without one of these texts is not read as a valid item. Nothing checks the time:
a row without one is read as an item at the start of 1601, and that is as valid as the other columns
make it. The queries return nothing but times that the table holds if and only if every row that is
read as a valid item has an integer for its time.
-/

namespace AdLedger.Store

open Sql
open Time (Instant)

/-- A row has an integer at a place. -/
def HasInt (r : Row) (i : Nat) : Prop := ∃ n, r[i]? = some (some (.int n))

/-- A row has a text at a place. -/
def HasText (r : Row) (i : Nat) : Prop := ∃ s, r[i]? = some (some (.text s))

theorem intAt_of_not_hasInt {r : Row} {i : Nat} (h : ¬ HasInt r i) : intAt r i = 0 := by
  unfold intAt
  split
  · rename_i n hn
    exact absurd ⟨n, hn⟩ h
  · rfl

theorem textAt_of_not_hasText {r : Row} {i : Nat} (h : ¬ HasText r i) : textAt r i = "" := by
  unfold textAt
  split
  · rename_i s hs
    exact absurd ⟨s, hs⟩ h
  · rfl

theorem textAt_of_eq_some {r : Row} {i : Nat} {s : String} (h : r[i]? = some (some (.text s))) :
    textAt r i = s := by
  simp only [textAt, h]

/-! ## The checks of columns -/

/-- The places of the texts that an item needs, and what each of them must be. -/
def checks : List (Nat × (String → Bool)) :=
  [(1, fun s => (AdType.ofName s).isDefined), (2, fun s => (ConfirmationType.ofName s).isDefined),
    (3, (· ≠ "")), (4, (· ≠ "")), (5, (· ≠ "")), (6, (· ≠ "")), (7, (· ≠ "")),
    (11, fun s => (Url.read? s).any Url.hasHost)]

/-- Every needed text is there, and passes its check. -/
def Fit (r : Row) : Prop :=
  ∀ c ∈ checks, ∃ s, r[c.1]? = some (some (.text s)) ∧ c.2 s = true

theorem isValid_decode (r : Row) :
    (decode r).isValid = checks.all fun c => c.2 (textAt r c.1) := by
  simp [checks, decode, Item.isValid, Item.identifiers, Bool.and_assoc]

/-- The empty text passes no check. -/
theorem check_empty {c : Nat × (String → Bool)} (h : c ∈ checks) : c.2 "" = false := by
  have hurl : ((Url.read? "").any Url.hasHost) = false := by rw [Url.read?_empty, Option.any_none]
  have hrest : ∀ c ∈ checks.take 7, c.2 "" = false := by decide
  obtain h | h : c ∈ checks.take 7 ∨ c ∈ checks.drop 7 := by
    rw [← List.mem_append, List.take_append_drop]
    exact h
  · exact hrest c h
  · obtain rfl := List.mem_singleton.1 h
    exact hurl

theorem isValid_decode_iff {r : Row} : (decode r).isValid = true ↔ Fit r := by
  rw [isValid_decode, List.all_eq_true]
  refine forall₂_congr fun c hc => ⟨fun h => ?_, ?_⟩
  · by_cases ht : HasText r c.1
    · obtain ⟨s, hs⟩ := ht
      exact ⟨s, hs, textAt_of_eq_some hs ▸ h⟩
    · rw [textAt_of_not_hasText ht, check_empty hc] at h
      exact absurd h Bool.false_ne_true
  · rintro ⟨s, hs, h⟩
    rwa [textAt_of_eq_some hs]

/-- A row without one of the texts is not read as a valid item. -/
theorem isValid_decode_of_not_hasText {r : Row} {i : Nat} (hi : i ∈ checks.map (·.1))
    (h : ¬ HasText r i) : (decode r).isValid = false := by
  obtain ⟨c, hc, rfl⟩ := List.mem_map.1 hi
  refine Bool.eq_false_iff.2 fun hv => h ?_
  obtain ⟨s, hs, -⟩ := isValid_decode_iff.1 hv c hc
  exact ⟨s, hs⟩

/-! ## Rows without a time -/

/-- The time from which platform time is counted. -/
def startOf1601 : Instant :=
  (Instant.ofParts? (Time.Date.toDays ⟨1601, 1, 1⟩ * Instant.daySeconds) 0).getD .epoch

theorem ofPlatform_zero : Instant.ofPlatform 0 = startOf1601 := by decide

theorem createdAt_decode_of_not_hasInt {r : Row} (h : ¬ HasInt r 0) :
    (decode r).createdAt = startOf1601 := by
  rw [← ofPlatform_zero, ← intAt_of_not_hasInt h]
  rfl

/-! ## Queries -/

/-- The queries of a ledger. -/
inductive Query where
  | inRange (start finish : Instant)
  | best (start finish : Instant)
  | ofCreative (id : String)

namespace Query

def work : Query → Work Database (List Item)
  | inRange start finish => itemsInRange start finish
  | best start finish => bestInRange start finish
  | ofCreative id => itemsOfCreative id

/-- The rows that a query selects, in the order of its answer. -/
def selected : Query → List Record → List Record
  | inRange start finish, rows => newest (inSpan start finish rows)
  | best start finish, rows => newest (bestOf (inSpan start finish rows))
  | ofCreative id, rows => rows.filter fun r => (r.get 4).eq (.text id)

theorem work_on {db : Database} {rows : List Record} (h : Holds db rows) (q : Query) :
    q.work.on db = (.ok (itemsOf (q.selected rows)), db) := by
  cases q with
  | inRange start finish => exact itemsInRange_on h start finish
  | best start finish => exact bestInRange_on h start finish
  | ofCreative id => exact itemsOfCreative_on h id

theorem mem_of_mem_selected {q : Query} {rows : List Record} {r : Record}
    (h : r ∈ q.selected rows) : r ∈ rows := by
  cases q with
  | inRange start finish => exact List.mem_of_mem_filter ((List.mergeSort_perm _ _).subset h)
  | best start finish =>
    exact List.mem_of_mem_filter (mem_of_mem_bestOf ((List.mergeSort_perm _ _).subset h))
  | ofCreative id => exact List.mem_of_mem_filter h

end Query

/-- The item read from a stored row has the time that the table holds. -/
def Timed (r : Record) : Prop := ∃ n, r.get 0 = .integer n ∧ (itemOf r).createdAt = .ofPlatform n

theorem getElem?_readRow (r : Record) {i : Nat} (h : i < columns.length) :
    (readRow r)[i]? = columnTypes[i]?.map fun t => t.cell (r.get i) := by
  have hi : ((List.range columns.length).map r.get)[i]? = some (r.get i) := by simp [h]
  rw [readRow, List.getElem?_zipWith, hi]
  cases columnTypes[i]? <;> rfl

theorem timed_iff {r : Record} : Timed r ↔ HasInt (readRow r) 0 := by
  have hcell : (readRow r)[0]? = some (ColumnType.int.cell (r.get 0)) :=
    getElem?_readRow r (by decide)
  constructor
  · rintro ⟨n, hn, -⟩
    exact ⟨n, by rw [hcell, hn]; rfl⟩
  · rintro ⟨n, hn⟩
    have htime : (itemOf r).createdAt = .ofPlatform n := by
      simp only [itemOf, decode, intAt, hn]
    rw [hcell] at hn
    cases hv : r.get 0 with
    | integer m =>
      obtain rfl : m = n := by simpa [hv, ColumnType.cell] using hn
      exact ⟨m, hv, htime⟩
    | _ => simp [hv, ColumnType.cell] at hn

/-- A row that is read as a valid item is found by its creative instance. -/
theorem exists_text_creative {r : Record} (h : readable r = true) :
    ∃ id, r.get 4 = .text id := by
  have hcell : (readRow r)[4]? = some (ColumnType.text.cell (r.get 4)) :=
    getElem?_readRow r (by decide)
  obtain ⟨s, hs, -⟩ := isValid_decode_iff.1 h (4, (· ≠ "")) (by simp [checks])
  rw [hcell] at hs
  cases hv : r.get 4 with
  | text id => exact ⟨id, rfl⟩
  | _ => simp [hv, ColumnType.cell] at hs

/-- Queries return the times that the table holds if and only if every row that passes the checks of
its other columns has an integer for its time. -/
theorem selected_timed_iff {rows : List Record} :
    (∀ q : Query, ∀ r ∈ q.selected rows, readable r = true → Timed r) ↔
      ∀ r ∈ rows, Fit (readRow r) → HasInt (readRow r) 0 := by
  simp only [timed_iff, ← isValid_decode_iff]
  constructor
  · intro h r hr hread
    obtain ⟨id, hid⟩ := exists_text_creative hread
    refine h (.ofCreative id) r (List.mem_filter.2 ⟨hr, ?_⟩) hread
    rw [hid, Value.text_eq_text, decide_eq_true rfl]
  · intro h q r hr
    exact h r (Query.mem_of_mem_selected hr)

/-- A row in which one of the needed texts is missing or is no text is not read as a valid item, and
adds nothing to the items of rows. A row without an integer for its time is read as an item at the
start of 1601, and this is not valid if and only if another column fails its check. So queries of a
table return the times that it holds if and only if all rows that pass the checks of their other
columns have integers for their times. -/
theorem mistyped_rows_dropped_iff {db : Database} {rows : List Record} (h : Holds db rows) :
    (∀ r, ∀ i ∈ [1, 2, 3, 4, 5, 6, 7, 11], ¬ HasText r i → (decode r).isValid = false ∧
      ∀ before after, decodeValid (before ++ r :: after) = decodeValid (before ++ after)) ∧
    (∀ r, ¬ HasInt r 0 →
      (decode r).createdAt = startOf1601 ∧ ((decode r).isValid = false ↔ ¬ Fit r)) ∧
    (∀ q : Query, q.work.on db = (.ok (itemsOf (q.selected rows)), db)) ∧
    ((∀ q : Query, ∀ r ∈ q.selected rows, readable r = true → Timed r) ↔
      ∀ r ∈ rows, Fit (readRow r) → HasInt (readRow r) 0) := by
  refine ⟨fun r i hi ht => ?_, fun r ht => ⟨createdAt_decode_of_not_hasInt ht, ?_⟩,
    Query.work_on h, selected_timed_iff⟩
  · have hinvalid := isValid_decode_of_not_hasText hi ht
    refine ⟨hinvalid, fun before after => ?_⟩
    simp [decodeValid, List.filter_cons_of_neg, hinvalid]
  · rw [← Bool.not_eq_true, isValid_decode_iff]

/-! ## A view without a time -/

/-- The row of a view with a text for its time. -/
def untimedRow : Record := viewRow.set 0 (.text "nope")

def untimedView : Database := ⟨[⟨layout, [untimedRow]⟩], []⟩

theorem holds_untimedView : Holds untimedView [untimedRow] :=
  List.find?_cons_of_pos (sameName_refl _)

theorem itemOf_untimedRow :
    itemOf untimedRow = { viewOfPlacement with createdAt := startOf1601 } := by
  have hitem : itemOf untimedRow = { itemOf viewRow with createdAt := .ofPlatform 0 } := rfl
  rw [hitem, itemOf_viewRow, ofPlatform_zero]

theorem readable_untimedRow : readable untimedRow = true := by
  rw [readable, itemOf_untimedRow]
  decide

theorem not_hasInt_untimedRow : ¬ HasInt (readRow untimedRow) 0 := by
  rintro ⟨n, hn⟩
  cases hn

/-- Some query of the table returns a time that the table does not hold. -/
theorem untimedView_queried :
    Holds untimedView [untimedRow] ∧
    ∃ q : Query, ∃ r ∈ q.selected [untimedRow], readable r = true ∧ ¬ Timed r := by
  refine ⟨holds_untimedView, ?_⟩
  by_contra! hall
  have hint := (mistyped_rows_dropped_iff holds_untimedView).2.2.2.1 hall untimedRow
    (List.mem_singleton_self _) (isValid_decode_iff.1 readable_untimedRow)
  exact not_hasInt_untimedRow hint

/-- A view without a time is returned, as one of the year 1601. -/
theorem untimed_view_returned :
    ¬ HasInt (readRow untimedRow) 0 ∧
    decodeValid [readRow untimedRow] = [{ viewOfPlacement with createdAt := startOf1601 }] ∧
    (itemsOfCreative "c").on untimedView =
      (.ok [{ viewOfPlacement with createdAt := startOf1601 }], untimedView) := by
  have hitems : itemsOf [untimedRow] = [{ viewOfPlacement with createdAt := startOf1601 }] := by
    rw [itemsOf_singleton readable_untimedRow, itemOf_untimedRow]
  refine ⟨not_hasInt_untimedRow, ?_, ?_⟩
  · rw [← hitems, ← decodeValid_map_readRow, List.map_singleton]
  · rw [itemsOfCreative_on holds_untimedView, List.filter_cons_of_pos (by decide), List.filter_nil,
      hitems]

end AdLedger.Store
