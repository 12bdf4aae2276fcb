import AdLedger.Proofs.Sql.WellFormed
import AdLedger.Proofs.Store.IndexNames
import AdLedger.Proofs.Store.Reopening

/-!
# The steps of the schema in any order

The steps that bring the table of events about, each in a transaction of its own, in any order and
any number of times, on a database that may have anything else in it. A step adds what is missing of
one table and four indexes, and nothing else (`Extended`), so that rows are never touched and a step
that has succeeded has nothing left to do. Whatever the order, the same table and indexes come
about if and only if nothing else has taken their names (`NamesFree`). An index over a column of
another table can have taken one, since names are joined with underscores that they may have
themselves; the step then passes over its own index without failing (`createdAtIndex_passed_over`).
-/

namespace AdLedger.Store

open Sql

/-- A step in a transaction of its own. -/
def carryOut (db : Database) (step : Step) : Except Refusal (List Row) × Database :=
  db.transact (ledgerHooks.statements step)

def afterSteps (db : Database) (steps : List Step) : Database :=
  steps.foldl (fun db step => (carryOut db step).2) db

def columnIndex (column : String) : Index := ⟨indexName tableName [column], tableName, [column]⟩

def indexedColumns : List String :=
  ["created_at", "confirmation_type", "placement_id", "creative_instance_id"]

/-- The indexes of the table of events. -/
def ledgerIndexes : List Index := indexedColumns.map columnIndex

variable {db mid after : Database} {step : Step} {steps : List Step} {s : Statement}

theorem afterSteps_append (db : Database) (steps more : List Step) :
    afterSteps db (steps ++ more) = afterSteps (afterSteps db steps) more := List.foldl_append

theorem afterSteps_cons (db : Database) (step : Step) (steps : List Step) :
    afterSteps db (step :: steps) = afterSteps (carryOut db step).2 steps := rfl

/-- Every statement of a step creates the table or one of its indexes. -/
theorem mem_statements (h : s ∈ ledgerHooks.statements step) :
    s = createTable ∨ ∃ column ∈ indexedColumns, s = createColumnIndex column := by
  obtain rfl | h := List.mem_cons.1 (mem_create_of_mem h)
  · exact .inl rfl
  · obtain ⟨column, hc, rfl⟩ := List.mem_map.1 h
    exact .inr ⟨column, hc, rfl⟩

/-! ## Names -/

theorem sameName_tableName_index {j : Index} (hj : j ∈ ledgerIndexes) :
    sameName tableName j.name = false := by
  have hlen : ∀ j ∈ ledgerIndexes, tableName.length ≠ j.name.length := by decide
  exact sameName_eq_false_of_length (hlen j hj)

/-- The names of the indexes have different lengths. -/
theorem eq_of_mem_ledgerIndexes {i j : Index} (hi : i ∈ ledgerIndexes) (hj : j ∈ ledgerIndexes)
    (hn : sameName i.name j.name = true) : i = j := by
  have hlen : ∀ i ∈ ledgerIndexes, ∀ j ∈ ledgerIndexes,
      i.name.length = j.name.length → i = j := by decide
  refine hlen i hi j hj (by_contra fun hne => ?_)
  rw [sameName_eq_false_of_length hne] at hn
  cases hn

/-! ## What steps add -/

/-- The table of events may have been added, without rows, and some of its indexes. -/
structure Extended (db after : Database) : Prop where
  tables : after.tables = db.tables ∨
    db.table? tableName = none ∧ after.tables = db.tables ++ [⟨layout, []⟩]
  indexes : ∃ added, (∀ i ∈ added, i ∈ ledgerIndexes) ∧ after.indexes = db.indexes ++ added

namespace Extended

theorem refl (db : Database) : Extended db db := ⟨.inl rfl, [], nofun, (List.append_nil _).symm⟩

/-- Tables are found as they were, with all their rows. -/
theorem table? (h : Extended db after) {name : String} {t : Table} (ht : db.table? name = some t) :
    after.table? name = some t := by
  unfold Database.table? at ht ⊢
  obtain he | ⟨-, he⟩ := h.tables
  · rwa [he]
  · rw [he, List.find?_append, ht, Option.some_or]

theorem table?_eq_none (h : Extended db after) {name : String} (hn : after.table? name = none) :
    db.table? name = none := by
  cases ht : db.table? name with
  | none => rfl
  | some t => exact nomatch (h.table? ht).symm.trans hn

theorem trans (h : Extended db mid) (h' : Extended mid after) : Extended db after := by
  obtain ⟨added, hadded, hi⟩ := h.indexes
  obtain ⟨more, hmore, hi'⟩ := h'.indexes
  refine ⟨?_, added ++ more, List.forall_mem_append.2 ⟨hadded, hmore⟩, ?_⟩
  · obtain ht' | ⟨hn', ht'⟩ := h'.tables
    · rw [ht']
      exact h.tables
    · obtain ht | ⟨hn, ht⟩ := h.tables
      · exact .inr ⟨h.table?_eq_none hn', by rw [ht', ht]⟩
      · have hsome : (mid.table? tableName).isSome = true := by
          rw [Database.table?, ht]
          simp [layout]
        rw [hn'] at hsome
        cases hsome
  · rw [hi', hi, List.append_assoc]

end Extended

theorem extended_perform (hs : s ∈ ledgerHooks.statements step) {result : Option (List Row)}
    (hp : s.perform db = .ok (after, result)) : Extended db after := by
  obtain ⟨-, rfl | ⟨l, rfl, -, rfl⟩ | ⟨i, rfl, -, -, -, rfl⟩⟩ :=
    (creates_of_mem_ledger hs).cases hp
  · exact .refl _
  · have hl : l = layout := by
      obtain h | ⟨column, -, h⟩ := mem_statements hs
      · simpa [createTable, Statement.execute] using h
      · simp [createColumnIndex, createIndex, Statement.execute] at h
    subst hl
    cases ht : db.table? layout.name with
    | none => exact ⟨.inr ⟨ht, rfl⟩, [], nofun, (List.append_nil _).symm⟩
    | some t =>
      have hsettled := Statement.settled_createTable_iff.2 (Option.isSome_of_eq_some ht)
      obtain ⟨hdb, -⟩ := Prod.mk.inj (Except.ok.inj (hsettled.symm.trans hp))
      rw [← hdb]
      exact .refl db
  · refine ⟨.inl rfl, [i], ?_, rfl⟩
    obtain h | ⟨column, hc, h⟩ := mem_statements hs
    · simp [createTable, Statement.execute] at h
    · obtain ⟨name, table, columns⟩ := i
      obtain ⟨rfl, rfl, rfl⟩ : name = indexName tableName [column] ∧ table = tableName ∧
          columns = [column] := by
        simpa [createColumnIndex, createIndex, Statement.execute] using h
      exact fun i hi => List.mem_singleton.1 hi ▸ List.mem_map_of_mem hc

theorem extended_performAll {ss : List Statement}
    (hss : ∀ s ∈ ss, s ∈ ledgerHooks.statements step) {rows rows' : List Row}
    (hp : db.performAll rows ss = .ok (after, rows')) : Extended db after := by
  induction ss generalizing db rows with
  | nil =>
    cases hp
    exact .refl _
  | cons s ss ih =>
    obtain ⟨hs, hss⟩ := List.forall_mem_cons.1 hss
    obtain ⟨⟨mid, result⟩, hm, hp⟩ := bind_eq_ok.1 hp
    exact (extended_perform hs hm).trans (ih hss hp)

theorem extended_carryOut (db : Database) (step : Step) : Extended db (carryOut db step).2 := by
  rw [carryOut, Database.transact_eq]
  split
  next hp => exact extended_performAll (fun _ => id) hp
  next => exact .refl db

theorem extended_afterSteps (db : Database) (steps : List Step) :
    Extended db (afterSteps db steps) := by
  induction steps generalizing db with
  | nil => exact .refl db
  | cons step steps ih => exact (extended_carryOut db step).trans (ih _)

theorem wellFormed_afterSteps (h : db.WellFormed) (steps : List Step) :
    (afterSteps db steps).WellFormed := by
  have hrun := h.transactions (steps.map ledgerHooks.statements)
  rwa [List.foldl_map] at hrun

/-! ## Steps that have been carried out -/

theorem settled_carryOut (h : s.Settled db) (hs : s.Creates) (step : Step) :
    s.Settled (carryOut db step).2 := by
  rw [carryOut, Database.transact_eq]
  split
  next hp => exact Database.settled_of_performAll h hs (fun _ => creates_of_mem_ledger) hp
  next => exact h

theorem settled_afterSteps (h : s.Settled db) (hs : s.Creates) (steps : List Step) :
    s.Settled (afterSteps db steps) := by
  induction steps generalizing db with
  | nil => exact h
  | cons step steps ih => exact ih (settled_carryOut h hs step)

/-- After a step has succeeded, none of its statements has anything to do. -/
theorem settled_of_carryOut {rows : List Row} (h : (carryOut db step).1 = .ok rows) :
    ∀ s ∈ ledgerHooks.statements step, s.Settled (carryOut db step).2 := by
  rw [carryOut, Database.transact_eq] at h ⊢
  split at h
  next hp =>
    exact Database.settled_performAll (fun _ => creates_of_mem_ledger) hp
  next => cases h

/-- A step that has succeeded once does nothing any more, whatever steps have come in between. -/
theorem carryOut_again {rows : List Row} (h : (carryOut db step).1 = .ok rows)
    (steps : List Step) :
    carryOut (afterSteps db (step :: steps)) step = (.ok [], afterSteps db (step :: steps)) := by
  have hsettled : ∀ s ∈ ledgerHooks.statements step, s.Settled (afterSteps db (step :: steps)) :=
    fun s hs => settled_afterSteps (settled_of_carryOut h s hs) (creates_of_mem_ledger hs) steps
  rw [carryOut, Database.transact_eq, Database.performAll_of_settled hsettled]

/-! ## What steps lead to -/

/-- There is no table of events, or one as the steps make it, with no indexes but theirs. -/
structure Own (db : Database) : Prop where
  layout_eq : ∀ t, db.table? tableName = some t → t.layout = layout
  indexes : ∀ i ∈ db.indexes, sameName i.table tableName = true → i ∈ ledgerIndexes

/-- No other table or index has a name that the steps use. -/
structure NamesFree (db : Database) : Prop where
  table : db.table? tableName = none → ∀ i ∈ db.indexes, sameName i.name tableName = false
  apart : ∀ j ∈ ledgerIndexes, db.table? j.name = none
  indexes : ∀ j ∈ ledgerIndexes, ∀ i ∈ db.indexes, sameName i.name j.name = true → i = j

theorem own_of_none (h : db.WellFormed) (hn : db.table? tableName = none) : Own db where
  layout_eq t ht := nomatch hn.symm.trans ht
  indexes i hi hname := by
    have hsome := h.placed i hi
    rw [Database.table?_congr hname, hn] at hsome
    cases hsome

theorem Own.extended (h : Own db) (he : Extended db after) : Own after where
  layout_eq t ht := by
    obtain hs | ⟨hn, hs⟩ := he.tables
    · refine h.layout_eq t ?_
      rw [← ht, Database.table?, Database.table?, hs]
    · rw [Database.table?, hs, List.find?_append, show db.tables.find? _ = none from hn,
        Option.none_or] at ht
      exact congrArg Table.layout (List.mem_singleton.1 (List.mem_of_find?_eq_some ht))
  indexes i hi hname := by
    obtain ⟨added, hadded, hs⟩ := he.indexes
    rw [hs] at hi
    obtain hi | hi := List.mem_append.1 hi
    · exact h.indexes i hi hname
    · exact hadded i hi

/-- The table that steps add has the name of none of their indexes. -/
theorem Extended.apart (he : Extended db after)
    (h : ∀ j ∈ ledgerIndexes, db.table? j.name = none) :
    ∀ j ∈ ledgerIndexes, after.table? j.name = none := by
  intro j hj
  obtain hs | ⟨-, hs⟩ := he.tables
  · rw [Database.table?, hs]
    exact h j hj
  · have hname : sameName layout.name j.name = false := sameName_tableName_index hj
    rw [Database.table?, hs, List.find?_append, show db.tables.find? _ = none from h j hj]
    simp [hname]

theorem NamesFree.extended (h : NamesFree db) (he : Extended db after) : NamesFree after where
  table hn i hi := by
    obtain ⟨added, hadded, hs⟩ := he.indexes
    rw [hs] at hi
    obtain hi | hi := List.mem_append.1 hi
    · exact h.table (he.table?_eq_none hn) i hi
    · rw [sameName_comm]
      exact sameName_tableName_index (hadded i hi)
  apart := he.apart h.apart
  indexes j hj i hi hname := by
    obtain ⟨added, hadded, hs⟩ := he.indexes
    rw [hs] at hi
    obtain hi | hi := List.mem_append.1 hi
    · exact h.indexes j hj i hi hname
    · exact eq_of_mem_ledgerIndexes (hadded i hi) hj hname

/-- The indexes of the table of events. -/
def eventIndexes (db : Database) : List Index :=
  db.indexes.filter fun i => sameName i.table tableName

/-- The table of events is there with its indexes, and no others. -/
def Complete (db : Database) : Prop :=
  (db.table? tableName).map Table.layout = some layout ∧ (eventIndexes db).Perm ledgerIndexes

theorem mem_eventIndexes {i : Index} (hi : i ∈ ledgerIndexes) :
    i ∈ eventIndexes db ↔ i ∈ db.indexes := by
  obtain ⟨column, -, rfl⟩ := List.mem_map.1 hi
  exact List.mem_filter.trans (and_iff_left (sameName_refl _))

theorem complete_of_settled (hw : db.WellFormed) (ho : Own db) (hf : NamesFree db)
    (h : ∀ s ∈ ledgerHooks.statements .create, s.Settled db) : Complete db := by
  have hnodup : ledgerIndexes.Nodup := by decide
  refine ⟨?_, (List.perm_ext_iff_of_nodup (hw.nodup.filter _) hnodup).2 fun i => ⟨fun hi => ?_,
    fun hi => ?_⟩⟩
  · have htable := Statement.settled_createTable_iff.1 (h createTable List.mem_cons_self)
    obtain ⟨t, ht⟩ := Option.isSome_iff_exists.1 htable
    rw [show db.table? tableName = some t from ht, Option.map_some, ho.layout_eq t ht]
  · obtain ⟨hmem, hname⟩ := List.mem_filter.1 hi
    exact ho.indexes i hmem hname
  · obtain ⟨column, hc, rfl⟩ := List.mem_map.1 hi
    have hindex := Statement.settled_createIndex_iff.1
      (h (createColumnIndex column) (List.mem_cons_of_mem _ (List.mem_map_of_mem hc)))
    obtain ⟨i, hfound⟩ := Option.isSome_iff_exists.1 hindex.2.2.2
    have hmem := List.mem_of_find?_eq_some hfound
    have hname : sameName i.name (columnIndex column).name = true := by
      simpa only [columnIndex] using List.find?_some hfound
    exact (mem_eventIndexes hi).2 (hf.indexes _ hi i hmem hname ▸ hmem)

/-- Nothing else can have a name that the steps use if they have led to all that they make. -/
theorem namesFree_of_complete (hw : db.WellFormed) (h : Complete (afterSteps db steps)) :
    NamesFree db := by
  have hw' := wellFormed_afterSteps hw steps
  have he := extended_afterSteps db steps
  obtain ⟨added, -, hindexes⟩ := he.indexes
  have hold : ∀ i ∈ db.indexes, i ∈ (afterSteps db steps).indexes := fun i hi => by
    rw [hindexes]
    exact List.mem_append_left _ hi
  have hall : ∀ j ∈ ledgerIndexes, j ∈ (afterSteps db steps).indexes := fun j hj =>
    (mem_eventIndexes hj).1 (h.2.mem_iff.2 hj)
  refine ⟨fun hn i hi => ?_, fun j hj => he.table?_eq_none (hw'.apart j (hall j hj)),
    fun j hj i hi => hw'.eq_of_sameName (hold i hi) (hall j hj)⟩
  rw [Bool.eq_false_iff]
  intro hname
  have hnone := hw'.apart i (hold i hi)
  rw [Database.table?_congr hname] at hnone
  have hsome := h.1
  rw [hnone] at hsome
  cases hsome

/-! ## Steps that succeed -/

theorem performAll_columns (ho : Own db) (ha : ∀ j ∈ ledgerIndexes, db.table? j.name = none)
    (ht : (db.table? tableName).isSome = true) {names : List String}
    (hn : ∀ column ∈ names, column ∈ indexedColumns) (rows : List Row) :
    ∃ after, db.performAll rows (names.map createColumnIndex) = .ok (after, rows) := by
  have hcolumns : ∀ column ∈ indexedColumns, column ∈ columnNames := by decide
  obtain ⟨t, ht⟩ := Option.isSome_iff_exists.1 ht
  obtain ⟨after, hp, -⟩ := performAll_createColumnIndexes_of_table?
    (fun c hc => hcolumns c (hn c hc)) ht (ho.layout_eq t ht)
    (fun c hc => ha (columnIndex c) (List.mem_map_of_mem (hn c hc))) rows
  exact ⟨after, hp⟩

theorem perform_createTable
    (hf : db.table? tableName = none → ∀ i ∈ db.indexes, sameName i.name tableName = false) :
    ∃ after, createTable.perform db = .ok (after, none) ∧
      (after.table? tableName).isSome = true := by
  cases ht : db.table? tableName with
  | some t =>
    have hsome : (db.table? tableName).isSome = true := Option.isSome_of_eq_some ht
    exact ⟨db, Statement.settled_createTable_iff.2 hsome, hsome⟩
  | none =>
    have hindex : db.index? tableName = none :=
      List.find?_eq_none.2 fun i hi => by simp [hf ht i hi]
    refine ⟨_, Statement.perform_execute rfl (Database.perform_createTable ht hindex), ?_⟩
    rw [Database.table?, List.find?_append, Option.isSome_or]
    simp [layout]

/-- The table is created where it is missing, and then its indexes are, or they are passed over. -/
theorem carryOut_ok (ho : Own db)
    (hf : db.table? tableName = none → ∀ i ∈ db.indexes, sameName i.name tableName = false)
    (ha : ∀ j ∈ ledgerIndexes, db.table? j.name = none) (names : List String)
    (hs : ledgerHooks.statements step = createTable :: names.map createColumnIndex)
    (hn : ∀ column ∈ names, column ∈ indexedColumns) : (carryOut db step).1 = .ok [] := by
  obtain ⟨mid, hp, ht⟩ := perform_createTable hf
  have hmem : createTable ∈ ledgerHooks.statements step := hs ▸ List.mem_cons_self
  have he := extended_perform hmem hp
  obtain ⟨after, hrun⟩ := performAll_columns (ho.extended he) (he.apart ha) ht hn []
  rw [carryOut, Database.transact_eq, hs, (Database.performAll_cons hp _ _).trans hrun]

/-- The second version needs the table. -/
theorem carryOut_second_ok (ho : Own db) (hf : NamesFree db)
    (ht : (db.table? tableName).isSome = true) : (carryOut db (.migrate 2)).1 = .ok [] := by
  have hn : ∀ column ∈ ["creative_instance_id"], column ∈ indexedColumns := by decide
  obtain ⟨after, ha⟩ := performAll_columns ho hf.apart ht hn []
  have hs : ledgerHooks.statements (.migrate 2) = ["creative_instance_id"].map createColumnIndex :=
    rfl
  rw [carryOut, Database.transact_eq, hs, ha]

/-- The steps contain the creation, or the first version and at some later point the second. -/
def Covers (steps : List Step) : Prop :=
  .create ∈ steps ∨
    ∃ before between rest, steps = before ++ .migrate 1 :: between ++ .migrate 2 :: rest

theorem settled_of_covers (ho : Own db) (hf : NamesFree db) (h : Covers steps) :
    ∀ s ∈ ledgerHooks.statements .create, s.Settled (afterSteps db steps) := by
  have own (steps : List Step) : Own (afterSteps db steps) :=
    ho.extended (extended_afterSteps db steps)
  have free (steps : List Step) : NamesFree (afterSteps db steps) :=
    hf.extended (extended_afterSteps db steps)
  intro s hs
  have hcreates := creates_of_mem_ledger hs
  obtain hcreate | ⟨before, between, rest, rfl⟩ := h
  · obtain ⟨before, rest, rfl⟩ := List.append_of_mem hcreate
    have hok : (carryOut (afterSteps db before) .create).1 = .ok [] :=
      carryOut_ok (own before) (free before).table (free before).apart indexedColumns rfl
        fun _ => id
    rw [afterSteps_append, afterSteps_cons]
    exact settled_afterSteps (settled_of_carryOut hok s hs) hcreates rest
  · have hfirst : (carryOut (afterSteps db before) (.migrate 1)).1 = .ok [] :=
      carryOut_ok (own before) (free before).table (free before).apart
        ["created_at", "confirmation_type", "placement_id"] rfl (by decide)
    have hmid : ∀ t ∈ ledgerHooks.statements (.migrate 1),
        t.Settled (afterSteps db (before ++ .migrate 1 :: between)) := by
      intro t ht
      rw [afterSteps_append, afterSteps_cons]
      exact settled_afterSteps (settled_of_carryOut hfirst t ht) (creates_of_mem_ledger ht) between
    have hsecond := carryOut_second_ok (own _) (free _)
      (Statement.settled_createTable_iff.1 (hmid createTable List.mem_cons_self))
    rw [afterSteps_append, afterSteps_cons]
    refine settled_afterSteps ?_ hcreates rest
    obtain hs | hs := mem_migrate_of_mem_create hs
    · exact settled_carryOut (hmid s hs) hcreates _
    · exact settled_of_carryOut hsecond s hs

/-! ## Replaying steps -/

/-- A database has the table of events with its indexes as another has, apart from the rows. -/
def SameEvents (db other : Database) : Prop :=
  (db.table? tableName).map Table.layout = (other.table? tableName).map Table.layout ∧
    (eventIndexes db).Perm (eventIndexes other)

theorem complete_created : Complete (afterSteps .empty [.create]) := by
  have hown : Own .empty := ⟨nofun, nofun⟩
  have hfree : NamesFree .empty := ⟨fun _ => nofun, fun _ _ => rfl, fun _ _ => nofun⟩
  have he := extended_afterSteps .empty [.create]
  exact complete_of_settled (wellFormed_afterSteps Database.wellFormed_empty _)
    (hown.extended he) (hfree.extended he)
    (settled_of_covers hown hfree (.inl List.mem_cons_self))

theorem sameEvents_created_iff : SameEvents db (afterSteps .empty [.create]) ↔ Complete db := by
  obtain ⟨hlayout, hindexes⟩ := complete_created
  unfold SameEvents
  rw [hlayout]
  exact and_congr_right fun _ =>
    ⟨fun h => h.trans hindexes, fun h => h.trans hindexes.symm⟩

/-- What holds of steps on a database, each in a transaction of its own. -/
structure Replays (db : Database) (steps : List Step) : Prop where
  /-- Tables stay as they are, with all their rows. -/
  kept : ∀ name t, db.table? name = some t → (afterSteps db steps).table? name = some t
  /-- Steps leave a database that they can be carried out on, and the names that they use free if
  they were. -/
  closed : (afterSteps db steps).WellFormed ∧ Own (afterSteps db steps) ∧
    (NamesFree db → NamesFree (afterSteps db steps))
  /-- There is nothing to do for versions other than the first two. -/
  unknown : ∀ version, version ≠ 1 → version ≠ 2 → ledgerHooks.statements (.migrate version) = []
  /-- A step that fails changes nothing. -/
  failed : ∀ step refusal, (carryOut (afterSteps db steps) step).1 = .error refusal →
    (carryOut (afterSteps db steps) step).2 = afterSteps db steps
  /-- A step that has succeeded succeeds again, and changes nothing. -/
  repeated : ∀ before step rest rows, steps = before ++ step :: rest →
    (carryOut (afterSteps db before) step).1 = .ok rows →
    carryOut (afterSteps db steps) step = (.ok [], afterSteps db steps)
  /-- What comes about is what the creation makes of a new database, unless something else has one
  of the names. -/
  converges : Covers steps →
    (SameEvents (afterSteps db steps) (afterSteps .empty [.create]) ↔ NamesFree db)

/-- Steps on a database without a table of events, or with one that steps have made. -/
theorem replays (hw : db.WellFormed) (ho : db.table? tableName = none ∨ Own db)
    (steps : List Step) : Replays db steps where
  kept name t := (extended_afterSteps db steps).table?
  closed :=
    have he := extended_afterSteps db steps
    ⟨wellFormed_afterSteps hw steps, (ho.elim (own_of_none hw) id).extended he, (·.extended he)⟩
  unknown version h1 h2 := by
    match version with
    | 0 => rfl
    | 1 => exact absurd rfl h1
    | 2 => exact absurd rfl h2
    | _ + 3 => rfl
  failed step refusal := Database.transact_of_error
  repeated before step rest rows hsteps hok := by
    subst hsteps
    rw [afterSteps_append]
    exact carryOut_again hok rest
  converges hc := by
    rw [sameEvents_created_iff]
    have hown : Own db := ho.elim (own_of_none hw) id
    have he := extended_afterSteps db steps
    exact ⟨namesFree_of_complete hw, fun hf => complete_of_settled (wellFormed_afterSteps hw steps)
      (hown.extended he) (hf.extended he) (settled_of_covers hown hf hc)⟩

/-! ## A ledger of the first version -/

theorem mem_ledgerIndexes_of_firstLedger (rows : List Record) :
    ∀ i ∈ (firstLedger rows).indexes, i ∈ ledgerIndexes :=
  show ∀ i ∈ ["created_at", "confirmation_type", "placement_id"].map columnIndex,
    i ∈ ledgerIndexes by decide

theorem namesFree_firstLedger (rows : List Record) : NamesFree (firstLedger rows) := by
  have ht : LedgerTables (firstLedger rows) [versionRecord .epoch 1] rows := .inl rfl
  refine ⟨fun hn => (nomatch hn.symm.trans ht.holds), fun j hj => ?_, fun j hj i hi =>
    eq_of_mem_ledgerIndexes (mem_ledgerIndexes_of_firstLedger rows i hi) hj⟩
  obtain ⟨column, hc, rfl⟩ := List.mem_map.1 hj
  have hcolumns : ∀ column ∈ indexedColumns, column ∈ columnNames := by decide
  exact ht.table?_indexName (hcolumns column hc)

theorem own_firstLedger (rows : List Record) : Own (firstLedger rows) where
  layout_eq t ht := by
    have htables : LedgerTables (firstLedger rows) [versionRecord .epoch 1] rows := .inl rfl
    cases ht.symm.trans htables.holds
    rfl
  indexes i hi _ := mem_ledgerIndexes_of_firstLedger rows i hi

theorem wellFormed_firstLedger (rows : List Record) : (firstLedger rows).WellFormed := by
  have ht : LedgerTables (firstLedger rows) [versionRecord .epoch 1] rows := .inl rfl
  have hlen : (firstLedger rows).indexes.Pairwise fun i j => i.name.length ≠ j.name.length :=
    show (["created_at", "confirmation_type", "placement_id"].map columnIndex).Pairwise
      fun i j => i.name.length ≠ j.name.length by decide
  refine ⟨ht.distinct, hlen.imp sameName_eq_false_of_length, fun i hi => ?_, fun i hi => ?_⟩
  · exact (namesFree_firstLedger rows).apart i (mem_ledgerIndexes_of_firstLedger rows i hi)
  obtain ⟨column, -, rfl⟩ := List.mem_map.1 hi
  exact Option.isSome_of_eq_some ht.holds

theorem replays_firstLedger :
    SameEvents (afterSteps (firstLedger [[.integer 1]]) [.migrate 2, .migrate 7, .create])
        (afterSteps .empty [.create]) ∧
      Holds (afterSteps (firstLedger [[.integer 1]]) [.migrate 2, .migrate 7, .create])
        [[.integer 1]] := by
  have ht : LedgerTables (firstLedger [[.integer 1]]) [versionRecord .epoch 1] [[.integer 1]] :=
    .inl rfl
  have h := replays (wellFormed_firstLedger [[.integer 1]]) (.inr (own_firstLedger _))
    [.migrate 2, .migrate 7, .create]
  exact ⟨(h.converges (.inl (by decide))).2 (namesFree_firstLedger _), h.kept _ _ ht.holds⟩

/-! ## A name that is taken -/

/-- An index over the one column of a table. Its name joins those of the table and the column. -/
def adTarget : Target := ⟨"ad", ["history_created_at"]⟩

def adTable : Database := ⟨[Target.emptyTable "ad" ["history_created_at"]], []⟩

def indexedAd : Database := adTarget.added adTable

theorem fits_adTable : adTarget.Fits adTable where
  nonempty := List.cons_ne_nil _ _
  columns := ⟨_, List.find?_cons_of_pos (sameName_refl _), fun _ => Target.hasColumn_emptyTable⟩
  unreserved := by decide

theorem table?_adTable {name : String} (h : "ad".length ≠ name.length) :
    adTable.table? name = none :=
  List.find?_eq_none.2 fun t ht => by
    cases List.mem_singleton.1 ht
    exact Bool.eq_false_iff.1 (sameName_eq_false_of_length h)

theorem transact_adTarget : adTable.transact [adTarget.statement] = (.ok [], indexedAd) :=
  Database.transact_singleton (Target.perform_statement fits_adTable (table?_adTable (by decide)))

theorem table?_indexedAd {name : String} (h : "ad".length ≠ name.length) :
    indexedAd.table? name = none :=
  (Target.table?_added adTarget adTable name).trans (table?_adTable h)

theorem wellFormed_indexedAd : indexedAd.WellFormed := by
  have h : adTable.WellFormed := ⟨List.pairwise_singleton _ _, .nil, nofun, nofun⟩
  have hrun := h.transact [adTarget.statement]
  rwa [transact_adTarget] at hrun

/-- The index over the column of the other table has the name of one that the table of events is to
have: its creation does not fail, and yet that index is not there. -/
theorem createdAtIndex_passed_over :
    adTable.transact [adTarget.statement] = (.ok [], indexedAd) ∧
    indexedAd.WellFormed ∧ indexedAd.table? tableName = none ∧ Covers [.create] ∧
    (carryOut indexedAd .create).1 = .ok [] ∧
    columnIndex "created_at" ∉ (afterSteps indexedAd [.create]).indexes ∧
    ¬ SameEvents (afterSteps indexedAd [.create]) (afterSteps .empty [.create]) := by
  have hnone : indexedAd.table? tableName = none := table?_indexedAd (by decide)
  have hapart : ∀ j ∈ ledgerIndexes, indexedAd.table? j.name = none := by
    have hlen : ∀ j ∈ ledgerIndexes, "ad".length ≠ j.name.length := by decide
    exact fun j hj => table?_indexedAd (hlen j hj)
  have hother : ∀ i ∈ indexedAd.indexes, sameName i.name tableName = false := by
    intro i hi
    cases List.mem_singleton.1 hi
    exact sameName_eq_false_of_length (by decide)
  have hindex : columnIndex "created_at" ∉ (afterSteps indexedAd [.create]).indexes := by
    intro hmem
    obtain ⟨added, -, hindexes⟩ := (extended_afterSteps indexedAd [.create]).indexes
    have had : adTarget.index ∈ (afterSteps indexedAd [.create]).indexes := by
      rw [hindexes]
      exact List.mem_append_left _ (List.mem_singleton_self _)
    have hname : adTarget.index.name = (columnIndex "created_at").name := by decide
    have heq := (wellFormed_afterSteps wellFormed_indexedAd [.create]).eq_of_sameName had hmem
      (hname ▸ sameName_refl _)
    exact absurd (congrArg Index.table heq) (by decide)
  refine ⟨transact_adTarget, wellFormed_indexedAd, hnone, .inl List.mem_cons_self, ?_, hindex, ?_⟩
  · exact carryOut_ok (own_of_none wellFormed_indexedAd hnone) (fun _ => hother) hapart
      indexedColumns rfl fun _ => id
  · intro hsame
    have hcomplete := sameEvents_created_iff.1 hsame
    have hmem : columnIndex "created_at" ∈ ledgerIndexes := List.mem_cons_self
    exact hindex ((mem_eventIndexes hmem).1 (hcomplete.2.mem_iff.2 hmem))

end AdLedger.Store
