import AdLedger.Proofs.Store.Rows

/-!
# The contents of a ledger

What a database holds as a ledger (`Holds`), and what each operation makes of it. Saving adds rows
for the valid items (`save_on`), purging takes rows away (`purge_on`), and the queries return the
items of those rows that they are about, and change nothing.
-/

namespace AdLedger.Store

open Sql
open Time (Instant)

/-- Work done from a state: its result, and the state after it. -/
def Work.on {σ α : Type} (w : Work σ α) (s : σ) : Except Failure α × σ := w.run.run s

section Work

variable {σ α β : Type}

@[simp] theorem Work.on_pure (a : α) (s : σ) : (pure a : Work σ α).on s = (.ok a, s) := rfl

/-- Work goes on after a result, from the state that is then reached, and ends with a failure. -/
theorem Work.on_bind (w : Work σ α) (f : α → Work σ β) (s : σ) :
    (w >>= f).on s = match w.on s with
      | (.ok a, after) => (f a).on after
      | (.error failure, after) => (.error failure, after) := by
  unfold Work.on ExceptT.run StateT.run
  simp only [bind, ExceptT.bind, ExceptT.mk, StateT.bind, ExceptT.bindCont]
  obtain ⟨result, after⟩ := w s
  cases result <;> rfl

theorem Work.on_bind_of_ok {w : Work σ α} {f : α → Work σ β} {s t : σ} {a : α}
    (h : w.on s = (.ok a, t)) : (w >>= f).on s = (f a).on t := by
  rw [on_bind, h]

theorem Work.on_bind_of_error {w : Work σ α} {f : α → Work σ β} {s t : σ} {failure : Failure}
    (h : w.on s = (.error failure, t)) : (w >>= f).on s = (.error failure, t) := by
  rw [on_bind, h]

/-- What is done one after the other succeeds in both parts. -/
theorem Work.on_bind_eq_ok {w : Work σ α} {f : α → Work σ β} {s t : σ} {b : β}
    (h : (w >>= f).on s = (.ok b, t)) :
    ∃ a mid, w.on s = (.ok a, mid) ∧ (f a).on mid = (.ok b, t) := by
  rw [on_bind] at h
  cases hon : w.on s with
  | mk result mid =>
    rw [hon] at h
    cases result with
    | ok a => exact ⟨a, mid, rfl, h⟩
    | error failure => cases h

end Work

def refused (refusal : Refusal) : Failure := .database refusal.message

theorem transact_on (statements : List Statement) (db : Database) :
    (transact statements : Work Database (List Row)).on db =
      ((db.transact statements).1.mapError refused, (db.transact statements).2) := rfl

/-- The database has a table of events, with these rows. -/
def Holds (db : Database) (rows : List Record) : Prop :=
  db.table? tableName = some ⟨layout, rows⟩

/-! ## Places of columns -/

theorem toLower_columnNames : columnNames.map String.toLower = columnNames := by
  have hlower : ∀ c ∈ columnNames, c.toList.map Char.toLower = c.toList := by decide
  refine (List.map_congr_left fun c hc => ?_).trans (List.map_id _)
  exact String.toList_inj.1 (String.toList_map.trans (hlower c hc))

/-- The names of columns are in small letters, so that each of them is the same as itself only. -/
theorem findIdx?_sameName {c : String} (h : c ∈ columnNames) :
    columnNames.findIdx? (sameName · c) = some (columnNames.findIdx (· = c)) := by
  have hc : c.toLower = c :=
    List.map_inj_left.1 (toLower_columnNames.trans (List.map_id _).symm) c h
  have hmap : (columnNames.map String.toLower).findIdx? (· = c) =
      columnNames.findIdx? (sameName · c) := by
    rw [List.findIdx?_map]
    simp only [sameName, hc]
    rfl
  rw [← hmap, toLower_columnNames]
  exact List.findIdx?_eq_some_of_exists ⟨c, h, decide_eq_true rfl⟩

theorem position_of_mem {c : String} (h : c ∈ columnNames) :
    layout.position c = .ok (columnNames.findIdx (· = c)) := by
  have hnames : layout.columns.findIdx? (fun col => sameName col.name c) =
      columnNames.findIdx? (sameName · c) := by
    rw [layout, columnNames, List.findIdx?_map, List.findIdx?_map]
    rfl
  rw [Layout.position, Layout.position?, hnames, findIdx?_sameName h]

theorem position_time : layout.position "created_at" = .ok 0 :=
  position_of_mem (by decide)

theorem position_confirmation : layout.position "confirmation_type" = .ok 2 :=
  position_of_mem (by decide)

theorem position_placement : layout.position "placement_id" = .ok 3 :=
  position_of_mem (by decide)

theorem position_creative : layout.position "creative_instance_id" = .ok 4 :=
  position_of_mem (by decide)

theorem positions : columnNames.mapM layout.position = .ok (List.range columns.length) :=
  mapM_eq_ok fun _ hc => position_of_mem hc

theorem project_columns (rows : List Record) :
    Database.project layout columnNames rows =
      .ok (rows.map fun r => (List.range columns.length).map r.get) := by
  rw [Database.project, positions]
  rfl

/-! ## Queries -/

variable {db : Database} {rows : List Record}

/-- A query that is carried out gives the valid items of the rows that it selects. -/
theorem query_on {command : Command Term} {values : List Scalar} {filled : Command Value}
    {selected : List Record} (hc : command.parameterCount ≤ Statement.mostParameters)
    (hf : command.fill (values.map Scalar.toValue) = some filled)
    (hp : db.perform filled =
      .ok (db, selected.map fun r => (List.range columns.length).map r.get)) :
    (query command values).on db = (.ok (itemsOf selected), db) := by
  have hs : (Statement.step command values columnTypes).filled = .ok filled :=
    Statement.filled_of_fill nofun hc hf
  have hstep := Database.transact_singleton (Statement.perform_step hs hp fun r hr => by
    obtain ⟨s, -, rfl⟩ := List.mem_map.1 hr
    simp [columnTypes])
  rw [query, Work.on_bind, transact_on, hstep, List.map_map]
  exact congrArg (Except.ok ·, db) (decodeValid_map_readRow selected)

theorem test_inRange (low high : Int64) :
    Condition.test layout (.between "created_at" (.integer low) (.integer high)) =
      .ok (within low high) := by
  simp only [Condition.test, position_time]
  rfl

theorem sort_newestFirst (selected : List Record) :
    newestFirst.sort layout selected = .ok (newest selected) := by
  simp only [newestFirst, Order.sort, position_time]
  rfl

/-- The rows that can be returned for a range of time. -/
def inSpan (start finish : Instant) (rows : List Record) : List Record :=
  rows.filter (within start.toPlatform finish.toPlatform)

theorem itemsInRange_on (h : Holds db rows) (start finish : Instant) :
    (itemsInRange start finish).on db =
      (.ok (itemsOf (newest (inSpan start finish rows))), db) :=
  query_on (by decide) rfl
    (Database.perform_select h (test_inRange _ _) (sort_newestFirst _) (project_columns _))

def rankOf (r : Record) : Nat := placementRanking.rank (r.get 2)

/-- The rows of best rank for their placements. -/
def bestOf (rows : List Record) : List Record := winners rankOf (·.get 3) rows

theorem bestInRange_on (h : Holds db rows) (start finish : Instant) :
    (bestInRange start finish).on db =
      (.ok (itemsOf (newest (bestOf (inSpan start finish rows)))), db) :=
  query_on (by decide) rfl
    (Database.perform_best h (test_inRange _ _) position_confirmation position_placement
      (sort_newestFirst _) (project_columns _))

theorem within_of_mem_inSpan {start finish : Instant} {r : Record}
    (h : r ∈ inSpan start finish rows) :
    within start.toPlatform finish.toPlatform r = true :=
  (List.mem_filter.1 h).2

theorem mem_of_mem_bestOf {r : Record} (h : r ∈ bestOf rows) : r ∈ rows := List.mem_of_mem_filter h

/-- An engine that takes rows of equal times in another order answers for a range with the same
rows, and in the same order up to ties. -/
theorem itemsInRange_upToTies (h : Holds db rows) (start finish : Instant) :
    ∃ chosen, (itemsInRange start finish).on db = (.ok (itemsOf chosen), db) ∧
      Descending chosen ∧ ∀ answer, answer.Perm (inSpan start finish rows) → Descending answer →
        UpToTies answer chosen :=
  have hin : ∀ r ∈ inSpan start finish rows, _ := fun _ => within_of_mem_inSpan
  ⟨_, itemsInRange_on h start finish, descending_newest hin,
    fun _ hperm hdesc => hdesc.upToTies_newest hin hperm⟩

/-- So it does for the best of a range. -/
theorem bestInRange_upToTies (h : Holds db rows) (start finish : Instant) :
    ∃ chosen, (bestInRange start finish).on db = (.ok (itemsOf chosen), db) ∧
      Descending chosen ∧ ∀ answer, answer.Perm (bestOf (inSpan start finish rows)) →
        Descending answer → UpToTies answer chosen :=
  have hin : ∀ r ∈ bestOf (inSpan start finish rows), _ :=
    fun _ hr => within_of_mem_inSpan (mem_of_mem_bestOf hr)
  ⟨_, bestInRange_on h start finish, descending_newest hin,
    fun _ hperm hdesc => hdesc.upToTies_newest hin hperm⟩

theorem test_creative (id : String) :
    Condition.test layout (.equals "creative_instance_id" (.text id)) =
      .ok fun r => (r.get 4).eq (.text id) := by
  simp only [Condition.test, position_creative]
  rfl

theorem itemsOfCreative_on (h : Holds db rows) (id : String) :
    (itemsOfCreative id).on db =
      (.ok (itemsOf (rows.filter fun r => (r.get 4).eq (.text id))), db) :=
  query_on (by decide) rfl (Database.perform_select h (test_creative id) rfl (project_columns _))

/-! ## Saving -/

/-- Every table but that of events is found as it was before. -/
def Apart (db after : Database) : Prop :=
  ∀ name t, sameName tableName name = false → db.table? name = some t →
    after.table? name = some t

/-- A stored row takes the values from the places where its columns are named. -/
theorem record_eq_zipWith {l : Layout} {names : List String} {places : List Nat}
    (h : l.columns.map (fun c => names.findIdx? (sameName · c.name)) = places.map some)
    (r : Record) :
    l.record names r = List.zipWith (fun c i => c.affinity.apply (r.get i)) l.columns places := by
  unfold Layout.record
  generalize l.columns = columns at h ⊢
  induction columns generalizing places with
  | nil => simp
  | cons c columns ih =>
    cases places with
    | nil => simp at h
    | cons i places =>
      obtain ⟨hc, hrest⟩ := List.cons.inj h
      simp only at hc
      rw [List.map_cons, List.zipWith_cons_cons, ih hrest, hc]

theorem layout_record_record (e : Entry) : layout.record columnNames e.record = e.record := by
  have hplaces : layout.columns.map (fun c => columnNames.findIdx? (sameName · c.name)) =
      (List.range columns.length).map some := by
    have hnames : ∀ c ∈ columnNames, columnNames.findIdx? (sameName · c) =
        some (columnNames.findIdx (· = c)) := fun c hc => findIdx?_sameName hc
    rw [layout, List.map_map]
    exact (List.map_map (l := columns)).symm.trans (List.map_congr_left hnames)
  rw [record_eq_zipWith hplaces]
  rfl

theorem parameterCount_insertRows (n : Nat) :
    (insertRows n).parameterCount = n * columns.length := by
  simp [insertRows, Command.parameterCount, Command.terms, List.flatten_replicate_replicate]

/-- The entries for the valid ones among items. -/
def entriesOf (items : List Item) : List Entry := (items.filter Item.isValid).map Entry.ofItem

@[simp] theorem entriesOf_append (items more : List Item) :
    entriesOf (items ++ more) = entriesOf items ++ entriesOf more := by
  simp [entriesOf]

theorem encodeValid_toValue (items : List Item) :
    (encodeValid items).map Scalar.toValue = ((entriesOf items).map Entry.record).flatten := by
  rw [encodeValid, List.map_flatMap, List.flatMap_def, entriesOf, List.map_map]
  rfl

theorem fill_insertRows (rows : List Record) (h : ∀ r ∈ rows, r.length = columns.length) :
    (insertRows rows.length).fill rows.flatten = some (.insert tableName columnNames rows) := by
  have hfill := fillRows_parameters rows [] h
  rw [List.append_nil] at hfill
  simp only [insertRows, Command.fill, Command.fillFrom, bind, StateT.bind, hfill,
    Option.bind_some]
  rfl

theorem perform_insert (h : Holds db rows) {entries : List Entry} (he : entries ≠ []) :
    db.perform (.insert tableName columnNames (entries.map Entry.record)) =
      .ok (db.setTable ⟨layout, rows ++ entries.map Entry.record⟩, []) := by
  have hwidth : (entries.map Entry.record).find? (fun r => r.length ≠ columnNames.length) =
      none := by
    simp [columnNames]
  have hrecords : Database.records ⟨layout, rows⟩ columnNames (entries.map Entry.record) =
      .ok (entries.map Entry.record) := by
    simp only [Database.records, positions, hwidth, List.isEmpty_iff, List.map_eq_nil_iff, he]
    simp [bind, Except.bind, pure, Except.pure, layout_record_record, Function.comp_def]
  have hinsert : Table.insertAll ⟨layout, rows⟩ (entries.map Entry.record) =
      .ok ⟨layout, rows ++ entries.map Entry.record⟩ := by
    refine Table.insertAll_of_allows fun u hu r hr => Table.allows_of_required ?_ ?_
    · rw [hu]
      exact fun c hc => by obtain ⟨_, -, rfl⟩ := List.mem_map.1 hc; rfl
    · obtain ⟨e, -, rfl⟩ := List.mem_map.1 hr
      exact fun v => Entry.ne_null_of_mem_record
  exact Database.perform_insert h hrecords hinsert

/-- An insert adds the rows of the valid items of its batch. -/
theorem perform_insertBatch (h : Holds db rows) {batch : List Item} {s : Statement}
    (hb : batch.length ≤ Settings.maxBatchSize) (hs : insertBatch batch = some s) :
    s.perform db =
      .ok (db.setTable ⟨layout, rows ++ (entriesOf batch).map Entry.record⟩, none) := by
  obtain ⟨hne, rfl⟩ : entriesOf batch ≠ [] ∧
      Statement.run (insertRows (entriesOf batch).length) (encodeValid batch) = s := by
    simpa [insertBatch, entriesOf] using hs
  have hlen : (entriesOf batch).length ≤ batch.length := by
    simpa [entriesOf] using List.length_filter_le _ _
  have hfill := fill_insertRows ((entriesOf batch).map Entry.record) (by simp)
  rw [List.length_map] at hfill
  refine Statement.perform_run (Statement.filled_of_fill nofun ?_ ?_) (perform_insert h hne)
  · have hmost : Settings.maxBatchSize * columns.length ≤ Statement.mostParameters := by decide
    exact (parameterCount_insertRows _).trans_le
      ((Nat.mul_le_mul_right _ (hlen.trans hb)).trans hmost)
  · exact (congrArg _ (encodeValid_toValue batch)).trans hfill

/-- The inserts of batches add the rows of all valid items, batch by batch. -/
theorem performAll_inserts (h : Holds db rows) {bs : List (List Item)}
    (hb : ∀ b ∈ bs, b.length ≤ Settings.maxBatchSize) (result : List Row) :
    ∃ after, db.performAll result (bs.filterMap insertBatch) = .ok (after, result) ∧
      Holds after (rows ++ (entriesOf bs.flatten).map Entry.record) := by
  induction bs generalizing db rows with
  | nil => exact ⟨db, rfl, by simpa [Holds, entriesOf] using h⟩
  | cons b bs ih =>
    obtain ⟨hlen, hb⟩ := List.forall_mem_cons.1 hb
    cases hs : insertBatch b with
    | none =>
      have hnil : entriesOf b = [] := by simpa [insertBatch, entriesOf] using hs
      obtain ⟨after, hp, ha⟩ := ih h hb
      refine ⟨after, by rwa [List.filterMap_cons_none hs], ?_⟩
      rwa [List.flatten_cons, entriesOf_append, hnil, List.nil_append]
    | some s =>
      have hset := Database.table?_setTable_self h
        (u := ⟨layout, rows ++ (entriesOf b).map Entry.record⟩) rfl
      obtain ⟨after, hp, ha⟩ := ih hset hb
      refine ⟨after, ?_, ?_⟩
      · rw [List.filterMap_cons_some hs, Database.performAll, perform_insertBatch h hlen hs]
        exact hp
      · rwa [List.flatten_cons, entriesOf_append, List.map_append, ← List.append_assoc]

theorem insertBatch_spares {b : List Item} {s : Statement} (hs : insertBatch b = some s)
    {name : String} (hn : sameName tableName name = false) : s.Spares name := by
  intro n hc
  obtain ⟨-, rfl⟩ : _ ∧ Statement.run _ _ = s := by simpa [insertBatch] using hs
  cases hc
  exact hn

/-- Saving succeeds, and adds rows for the valid ones among the items. -/
theorem save_on (h : Holds db rows) (settings : Settings) (items : List Item) :
    ∃ after, (save settings items).on db = (.ok (), after) ∧
      Holds after (rows ++ (entriesOf items).map Entry.record) ∧ Apart db after := by
  have hb : ∀ b ∈ batches settings.effectiveBatchSize items, b.length ≤ Settings.maxBatchSize :=
    fun b hb => (length_of_mem_batches settings.effectiveBatchSize_pos hb).2.trans
      settings.effectiveBatchSize_le
  obtain ⟨after, hp, ha⟩ := performAll_inserts h hb []
  rw [flatten_batches] at ha
  refine ⟨after, ?_, ha, fun name t hn ht => ?_⟩
  · have ht : (transact (inserts settings.effectiveBatchSize items) : Work Database _).on db =
        (.ok [], after) := by
      rw [transact_on, Database.transact_eq, inserts, hp]
      rfl
    by_cases hnil : inserts settings.effectiveBatchSize items = []
    · rw [hnil] at ht
      simp only [save, hnil]
      exact congrArg (Except.ok (), ·) (Prod.mk.inj ht).2
    · simp only [save, List.isEmpty_iff, hnil, if_false, Work.on_bind, ht]
      rfl
  · refine Database.table?_performAll ht (fun s hs => ?_) hp
    obtain ⟨b, -, hb⟩ := List.mem_filterMap.1 hs
    exact insertBatch_spares hb hn

/-! ## Purging -/

theorem test_atMost (cutoff : Int64) :
    Condition.test layout (.atMost "created_at" (.integer cutoff)) =
      .ok fun r => (r.get 0).le (.integer cutoff) := by
  simp only [Condition.test, position_time]
  rfl

/-- Purging puts in the place of the table one without what is as old as the cutoff, or older. -/
theorem purge_on_eq (h : Holds db rows) {settings : Settings} {now cutoff : Instant}
    (hc : settings.cutoff now = .ok cutoff) :
    (purge settings now).on db = (.ok (), db.setTable ⟨layout,
      rows.filter fun r => !(r.get 0).le (.integer cutoff.toPlatform)⟩) := by
  have hs : (forgetUpTo cutoff).perform db =
      .ok (db.setTable ⟨layout,
        rows.filter fun r => !(r.get 0).le (.integer cutoff.toPlatform)⟩, none) := by
    have hcount : (forgetUpTo cutoff).command.parameterCount ≤ Statement.mostParameters :=
      show 1 ≤ 32766 by decide
    exact Statement.perform_run (Statement.filled_of_fill nofun hcount rfl)
      (Database.perform_delete h (test_atMost _))
  have hok : Work.on (ExceptT.mk (pure (settings.cutoff now))) db = (.ok cutoff, db) := by
    rw [hc]
    rfl
  rw [purge, Work.on_bind, hok]
  simp only [Work.on_bind, transact_on, Database.transact_singleton hs]
  rfl

/-- Purging takes away what is as old as the cutoff, or older. -/
theorem purge_on (h : Holds db rows) {settings : Settings} {now cutoff : Instant}
    (hc : settings.cutoff now = .ok cutoff) :
    ∃ after, (purge settings now).on db = (.ok (), after) ∧
      Holds after (rows.filter fun r => !(r.get 0).le (.integer cutoff.toPlatform)) ∧
      Apart db after :=
  ⟨_, purge_on_eq h hc, Database.table?_setTable_self h rfl,
    fun _ _ hn ht => Database.table?_setTable_other ht hn⟩

theorem purge_on_error {settings : Settings} {now : Instant} {failure : Failure}
    (hc : settings.cutoff now = .error failure) (db : Database) :
    (purge settings now).on db = (.error failure, db) := by
  rw [purge, hc]
  rfl

end AdLedger.Store
