import AdLedger.Proofs.Store.Contents

/-!
# Saving in batches

What saving sends to an engine, whatever the batch size is set to: nothing if no item is valid, and
else one transaction, with an insert for each group of consecutive items that holds a valid one
(`Batched`). Every insert has as many parameters as values, and all of them together have the values
of the valid items in their order, so that the rows do not depend on the groups.
-/

namespace AdLedger

/-! ## Written parameters -/

namespace Sql

theorem count_commas {c : Char} (hc : c ∉ [',', ' ']) (items : List String) :
    (commas items).toList.count c = (items.map (·.toList.count c)).sum := by
  unfold commas
  induction items with
  | nil => rw [String.intercalate_nil]; rfl
  | cons item items ih =>
    cases items with
    | nil => simp
    | cons next items =>
      have hsep : (", ".toList).count c = 0 := List.count_eq_zero.2 hc
      rw [String.intercalate_cons_cons, String.toList_append, String.toList_append,
        List.count_append, List.count_append, hsep, Nat.add_zero, ih]
      rfl

/-- As many tuples as there are rows, with as many parameters as there are columns. -/
theorem count_placeholders (width rows : Nat) :
    (placeholders width rows).toList.count '?' = rows * width := by
  have htuple : ("(" ++ commas (List.replicate width "?") ++ ")").toList.count '?' = width := by
    rw [String.toList_append, String.toList_append, List.count_append, List.count_append,
      count_commas (by decide), List.map_replicate, List.sum_replicate_nat]
    simp
  rw [placeholders, count_commas (by decide), List.map_replicate, htuple, List.sum_replicate_nat]

theorem tuples_replicate (width rows : Nat) :
    tuples (List.replicate rows (List.replicate width .parameter)) = placeholders width rows := by
  rw [tuples, placeholders, List.map_replicate, List.map_replicate]
  rfl

theorem text_insert (table : String) (columns : List String) (rows : List (List Term)) :
    (Command.insert table columns rows).text =
      "INSERT INTO " ++ table ++ " (" ++ commas columns ++ ") VALUES " ++ tuples rows ++ ";" := by
  rfl

end Sql

namespace Store

open Sql

/-! ## Groups -/

/-- The groups of consecutive elements, all of one size but perhaps the last. -/
def groups {α : Type} (size : Nat) (xs : List α) : List (List α) :=
  (List.range ((xs.length + size - 1) / size)).map fun i => (xs.drop (i * size)).take size

theorem batches_eq_groups {α : Type} {size : Nat} (pos : 0 < size) (xs : List α) :
    batches size xs = groups size xs := by
  fun_induction batches size xs with
  | case1 => simp [groups, Nat.div_eq_of_lt (Nat.sub_lt pos Nat.one_pos)]
  | case2 x rest ih =>
    obtain ⟨k, rfl⟩ : ∃ k, size = k + 1 := ⟨size - 1, by omega⟩
    have hcount : ((x :: rest).length + (k + 1) - 1) / (k + 1) =
        ((rest.drop k).length + (k + 1) - 1) / (k + 1) + 1 := by
      have hfew : ∀ n, n ≤ k → n / (k + 1) = 0 :=
        fun n hn => Nat.div_eq_of_lt (Nat.lt_succ_of_le hn)
      have hall : (x :: rest).length + (k + 1) - 1 = rest.length + (k + 1) := by
        rw [List.length_cons]
        omega
      rw [hall, Nat.add_div_right _ pos, List.length_drop, Nat.succ_inj]
      obtain hle | hlt := Nat.lt_or_ge k rest.length |>.symm
      · rw [hfew _ hle, hfew _ (by omega)]
      · congr 1
        omega
    rw [ih, groups, groups, hcount, List.range_succ_eq_map, List.map_cons, List.map_map]
    refine congrArg₂ _ (by simp) (List.map_congr_left fun i _ => ?_)
    rw [Function.comp_apply, Nat.succ_mul, ← Nat.add_assoc, List.drop_succ_cons, List.drop_drop,
      Nat.add_sub_cancel, Nat.add_comm (i * (k + 1))]

example : (groups 50 (List.range 120)).map List.length = [50, 50, 20] := by decide

/-! ## Inserts -/

/-- The insert for the valid items of a group. -/
def insertOf (group : List Item) : Statement :=
  .run (insertRows (group.filter Item.isValid).length) (encodeValid group)

/-- What an insert of so many rows says. -/
def insertText (rows : Nat) : String :=
  "INSERT INTO " ++ tableName ++ " (" ++ commas columnNames ++ ") VALUES " ++
    placeholders columns.length rows ++ ";"

theorem text_insertRows (rows : Nat) : (insertRows rows).text = insertText rows := by
  rw [insertRows, text_insert, tuples_replicate, insertText]

theorem count_insertText (rows : Nat) :
    (insertText rows).toList.count '?' = rows * columns.length := by
  have hnames : (commas columnNames).toList.count '?' = 0 := by
    rw [count_commas (by decide)]
    decide
  have htable : tableName.toList.count '?' = 0 := by decide
  simp only [insertText, String.toList_append, List.count_append, hnames, htable,
    count_placeholders]
  simp

theorem length_encodeValid (items : List Item) :
    (encodeValid items).length = (items.filter Item.isValid).length * columns.length := by
  have hlen : ∀ i ∈ items.filter Item.isValid, (encode i).length = columns.length := fun _ _ => rfl
  rw [encodeValid, List.length_flatMap, List.map_congr_left hlen, List.map_const',
    List.sum_replicate_nat]

theorem insertBatch_eq_ite (group : List Item) :
    insertBatch group = if group.any Item.isValid then some (insertOf group) else none := by
  have hempty : (group.filter Item.isValid).isEmpty = !group.any Item.isValid := by
    rw [Bool.eq_iff_iff]
    simp
  unfold insertBatch
  simp only [hempty]
  cases group.any Item.isValid <;> rfl

theorem inserts_eq_map (size : Nat) (items : List Item) :
    inserts size items = ((batches size items).filter (·.any Item.isValid)).map insertOf := by
  unfold inserts
  induction batches size items with
  | nil => rfl
  | cons group rest ih =>
    rw [List.filterMap_cons, insertBatch_eq_ite, List.filter_cons]
    cases group.any Item.isValid with
    | false => exact ih
    | true => exact congrArg (insertOf group :: ·) ih

/-- There are inserts if and only if there is something to insert. -/
theorem inserts_eq_nil_iff {size : Nat} {items : List Item} :
    inserts size items = [] ↔ items.any Item.isValid = false := by
  rw [inserts_eq_map, List.map_eq_nil_iff, List.filter_eq_nil_iff, ← flatten_batches size items,
    List.any_flatten, flatten_batches, List.any_eq_false]

theorem encodeValid_append (items more : List Item) :
    encodeValid (items ++ more) = encodeValid items ++ encodeValid more := by
  rw [encodeValid, List.filter_append, List.flatMap_append]
  rfl

/-- The inserts of groups have the values of all valid items; a group without an insert has none. -/
theorem values_filterMap_insertBatch (gs : List (List Item)) :
    (gs.filterMap insertBatch).flatMap Statement.values = encodeValid gs.flatten := by
  induction gs with
  | nil => rfl
  | cons group rest ih =>
    rw [List.filterMap_cons, insertBatch_eq_ite, List.flatten_cons, encodeValid_append, ← ih]
    cases hany : group.any Item.isValid with
    | true => rfl
    | false =>
      have hnone : group.filter Item.isValid = [] := by simpa using hany
      rw [encodeValid, hnone]
      rfl

/-- What is sent for items in groups of a size. -/
structure Batched (size : Nat) (items : List Item) (statements : List Statement) : Prop where
  /-- There is an insert for each group that holds a valid item. -/
  grouped : statements = ((groups size items).filter (·.any Item.isValid)).map insertOf
  /-- An insert has one row at least, and no more rows than a group has items. It is told by the
  number of its rows, and has a parameter for each value, never more of them than a command may
  have. -/
  insert : ∀ s ∈ statements, ∃ rows, 0 < rows ∧ rows ≤ size ∧ s.operation = .run ∧
    s.command.text = insertText rows ∧ s.values.length = 12 * rows ∧
    s.command.text.toList.count '?' = s.values.length ∧ s.values.length ≤ 32766
  /-- The values are those of the valid items, in their order. -/
  values : statements.flatMap Statement.values = (items.filter Item.isValid).flatMap encode

theorem batched_inserts {size : Nat} (pos : 0 < size) (hsize : size ≤ Settings.maxBatchSize)
    (items : List Item) : Batched size items (inserts size items) where
  grouped := by rw [inserts_eq_map, batches_eq_groups pos]
  insert s hs := by
    rw [inserts_eq_map] at hs
    obtain ⟨group, hgroup, rfl⟩ := List.mem_map.1 hs
    obtain ⟨hmem, hany⟩ := List.mem_filter.1 hgroup
    have hlen : group.length ≤ size := (length_of_mem_batches pos hmem).2
    have hrows : (group.filter Item.isValid).length ≤ group.length := List.length_filter_le _ _
    have hpos : 0 < (group.filter Item.isValid).length := by
      rw [List.length_pos_iff]
      simpa using hany
    have hvalues : (insertOf group).values.length =
        (group.filter Item.isValid).length * columns.length := length_encodeValid group
    refine ⟨_, hpos, hrows.trans hlen, rfl, text_insertRows _, ?_, ?_, ?_⟩
    · rw [hvalues, Nat.mul_comm]
      rfl
    · rw [hvalues, ← count_insertText, ← text_insertRows]
      rfl
    · have hmost : Settings.maxBatchSize * columns.length ≤ 32766 := by decide
      rw [hvalues]
      exact (Nat.mul_le_mul_right _ (hrows.trans (hlen.trans hsize))).trans hmost
  values := by
    rw [inserts, values_filterMap_insertBatch, flatten_batches]
    rfl

/-- An engine is left alone if there is nothing to save, and else is sent one transaction. -/
theorem save_on_eq {σ : Type} [Engine σ] (settings : Settings) (items : List Item) (s : σ) :
    (save settings items).on s =
      if items.any Item.isValid then
        (transact (inserts settings.effectiveBatchSize items) >>= fun _ => pure ()).on s
      else (.ok (), s) := by
  unfold save
  cases hany : items.any Item.isValid with
  | false =>
    rw [inserts_eq_nil_iff.2 hany]
    rfl
  | true =>
    have hsome : (inserts settings.effectiveBatchSize items).isEmpty = false := by
      rw [Bool.eq_false_iff, ne_eq, List.isEmpty_iff, inserts_eq_nil_iff, hany]
      exact nofun
    simp only [hsome]
    rfl

/-- For any settings and any items, saving sends an engine one transaction with an insert for each
group that holds a valid item, and none if no item is valid. In a ledger it adds a row for each
valid item, in their order, whatever the settings. -/
theorem saves_in_batches (settings : Settings) (items : List Item) :
    0 < settings.effectiveBatchSize ∧
    (∃ statements, Batched settings.effectiveBatchSize items statements ∧
      ∀ r : Recorder, (save settings items).on r =
        if items.any Item.isValid then
          (r.answer.map fun _ => (), { r with sent := statements :: r.sent })
        else (.ok (), r)) ∧
    ∀ (db : Database) (rows : List Record), Holds db rows →
      ∃ after, (save settings items).on db = (.ok (), after) ∧
        Holds after
          (rows ++ (items.filter Item.isValid).map fun i => (encode i).map Scalar.toValue) := by
  refine ⟨settings.effectiveBatchSize_pos, ⟨_, batched_inserts settings.effectiveBatchSize_pos
    settings.effectiveBatchSize_le items, fun r => ?_⟩, fun db rows h => ?_⟩
  · rw [save_on_eq]
    split
    next => cases r with | mk sent answer => cases answer <;> rfl
    next => rfl
  · obtain ⟨after, hon, hafter, -⟩ := save_on h settings items
    refine ⟨after, hon, ?_⟩
    rwa [entriesOf, List.map_map] at hafter

end Store
end AdLedger
