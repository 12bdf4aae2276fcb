import AdLedger.Proofs.Sql.Table
import Mathlib.Data.List.Pairwise

/-!
# The schema of a database

The tables and indexes of a database without their rows. Most commands keep it
(`Database.schema_performAll`). Statements that create what is missing have nothing left to do once
they have been carried out (`Statement.Settled`), whatever else is created after them
(`Database.settled_performAll`), so that to carry them out again changes nothing.
-/

namespace AdLedger.Sql

/-- The layouts of the tables, and the indexes. -/
structure Schema where
  layouts : List Layout
  indexes : List Index

namespace Database

def schema (db : Database) : Schema := ⟨db.tables.map Table.layout, db.indexes⟩

/-- No two tables have the same name. -/
def Distinct (db : Database) : Prop :=
  (db.tables.map Table.layout).Pairwise fun l m => sameName l.name m.name = false

variable {db after : Database} {t u : Table} {name : String}

theorem Distinct.of_schema (h : db.Distinct) (he : after.schema = db.schema) : after.Distinct := by
  unfold Distinct
  rwa [show after.tables.map Table.layout = db.tables.map Table.layout from
    congrArg Schema.layouts he]

theorem isSome_table?_of_schema (he : after.schema = db.schema) (name : String) :
    (after.table? name).isSome = (db.table? name).isSome := by
  have hfind : ∀ d : Database, (d.table? name).isSome =
      (d.schema.layouts.find? fun l => sameName l.name name).isSome := by
    intro d
    unfold schema
    rw [List.find?_map, Option.isSome_map]
    rfl
  rw [hfind, hfind, he]

theorem index?_of_schema (he : after.schema = db.schema) (name : String) :
    after.index? name = db.index? name := by
  unfold index?
  rw [show after.indexes = db.indexes from congrArg Schema.indexes he]

theorem index?_congr {a b : String} (h : sameName a b = true) : db.index? a = db.index? b := by
  unfold index?
  congr 1
  funext i
  rw [sameName_comm i.name, sameName_comm i.name, sameName_congr h]

theorem table?_congr {a b : String} (h : sameName a b = true) : db.table? a = db.table? b := by
  unfold table?
  congr 1
  funext t
  rw [sameName_comm t.layout.name, sameName_comm t.layout.name, sameName_congr h]

theorem isSome_table?_append (h : (db.table? name).isSome = true) (more : List Table)
    (indexes : List Index) :
    ((⟨db.tables ++ more, indexes⟩ : Database).table? name).isSome = true := by
  rw [table?, List.find?_append, Option.isSome_or]
  exact Bool.or_eq_true_iff.2 (.inl h)

/-- A table is the only one of its name. -/
theorem Distinct.eq_of_sameName (hd : db.Distinct) (ht : db.table? name = some t) {v : Table}
    (hv : v ∈ db.tables) (hn : sameName v.layout.name t.layout.name = true) : v = t := by
  by_contra hne
  have : Std.Symm fun v w : Table => sameName v.layout.name w.layout.name = false :=
    ⟨fun v w h => by rwa [sameName_comm]⟩
  have hfalse := (List.pairwise_map.1 hd).forall hv (List.mem_of_find?_eq_some ht) hne
  rw [hn] at hfalse
  cases hfalse

/-- To put a table in its own place changes nothing. -/
theorem setTable_of_table? (hd : db.Distinct) (ht : db.table? name = some t) :
    db.setTable t = db := by
  unfold setTable
  congr 1
  refine (List.map_congr_left fun v hv => ?_).trans (List.map_id _)
  split
  next hn => exact (hd.eq_of_sameName ht hv hn).symm
  next => rfl

theorem schema_setTable (hd : db.Distinct) (ht : db.table? name = some t)
    (hu : u.layout = t.layout) : (db.setTable u).schema = db.schema := by
  unfold schema setTable
  congr 1
  rw [List.map_map]
  refine List.map_congr_left fun v hv => ?_
  dsimp only [Function.comp]
  split
  next hn =>
    rw [hu] at hn ⊢
    rw [hd.eq_of_sameName ht hv hn]
  next => rfl

/-! ## Statements that keep it -/

/-- A statement that does not create or take away tables or indexes keeps the schema. -/
theorem schema_perform (hd : db.Distinct) {s : Statement} {result : Option (List Row)}
    (hs : s.command.changesSchema = false) (hp : s.perform db = .ok (after, result)) :
    after.schema = db.schema := by
  obtain ⟨filled, values, records, hfill, hp⟩ := Statement.filled_of_perform hp
  rw [← Command.changesSchema_fill hfill] at hs
  obtain rfl | ⟨n, t, u, -, ht, hu, rfl⟩ := perform_rows hs hp
  · rfl
  · exact schema_setTable hd ht hu

theorem schema_performAll (hd : db.Distinct) {ss : List Statement} {rows rows' : List Row}
    (hs : ∀ s ∈ ss, s.command.changesSchema = false)
    (hp : db.performAll rows ss = .ok (after, rows')) : after.schema = db.schema := by
  induction ss generalizing db rows with
  | nil => cases hp; rfl
  | cons s ss ih =>
    obtain ⟨hs, hss⟩ := List.forall_mem_cons.1 hs
    obtain ⟨⟨mid, result⟩, hm, hp⟩ := bind_eq_ok.1 hp
    have hschema := schema_perform hd hs hm
    exact (ih (hd.of_schema hschema) hss hp).trans hschema

end Database

/-! ## Creating what is missing -/

namespace Statement

/-- A statement that creates a table or an index where it is missing. -/
inductive Creates : Statement → Prop where
  | table (layout : Layout) : Creates (.execute (.createTable layout))
  | index (name table : String) (columns : List String) :
      Creates (.execute (.createIndex name table columns))

/-- A statement that is carried out without any effect. -/
def Settled (s : Statement) (db : Database) : Prop := s.perform db = .ok (db, none)

variable {db after : Database} {s t : Statement} {result : Option (List Row)}

/-- To create something either has no effect or adds one table or one index, whose name is free. -/
theorem Creates.cases (hs : s.Creates) (hp : s.perform db = .ok (after, result)) :
    result = none ∧ (after = db ∨
      (∃ layout, s = .execute (.createTable layout) ∧ db.index? layout.name = none ∧
        after = { db with tables := db.tables ++ [⟨layout, []⟩] }) ∨
      ∃ i : Index, s = .execute (.createIndex i.name i.table i.columns) ∧ i.columns ≠ [] ∧
        (db.table? i.table).isSome = true ∧ db.table? i.name = none ∧
        after = { db with indexes := db.indexes ++ [i] }) := by
  cases hs with
  | table layout =>
    obtain ⟨rfl, records, hc⟩ := of_perform_execute rfl hp
    refine ⟨rfl, ?_⟩
    simp only [Database.perform] at hc
    split at hc
    · cases hc
      exact .inl rfl
    · obtain ⟨_, ha, hc⟩ := bind_eq_ok.1 hc
      cases hc
      unfold Database.addTable at ha
      split at ha
      · cases ha
      next hi =>
        cases ha
        exact .inr (.inl ⟨layout, rfl, by simpa using hi, rfl⟩)
  | index name table columns =>
    obtain ⟨rfl, records, hc⟩ := of_perform_execute rfl hp
    refine ⟨rfl, ?_⟩
    obtain ⟨_, ha, hc⟩ := bind_eq_ok.1 hc
    cases hc
    obtain ⟨hcolumns, ht, hn, ⟨-, rfl⟩ | ⟨-, rfl⟩⟩ := Database.addIndex_cases ha
    · exact .inl rfl
    · exact .inr (.inr ⟨⟨name, table, columns⟩, rfl, hcolumns, ht, hn, rfl⟩)

/-! ### Having nothing to do -/

theorem settled_createTable_iff {layout : Layout} :
    (Statement.execute (.createTable layout)).Settled db ↔
      (db.table? layout.name).isSome = true := by
  constructor
  · intro h
    obtain ⟨-, records, hc⟩ := of_perform_execute rfl h
    by_contra ht
    simp only [Database.perform, ht] at hc
    obtain ⟨_, ha, hc⟩ := bind_eq_ok.1 hc
    cases hc
    unfold Database.addTable at ha
    split at ha
    · cases ha
    · have htables := congrArg (fun d => d.tables.length) (Except.ok.inj ha)
      simp at htables
  · intro h
    have hf : (Statement.execute (.createTable layout)).filled = .ok (.createTable layout) := rfl
    exact perform_execute hf (Database.perform_createTable_of_table h)

theorem settled_createIndex_iff {name table : String} {columns : List String} :
    (Statement.execute (.createIndex name table columns)).Settled db ↔
      columns ≠ [] ∧ (db.table? table).isSome = true ∧ db.table? name = none ∧
        (db.index? name).isSome = true := by
  constructor
  · intro h
    obtain ⟨-, records, hc⟩ := of_perform_execute rfl h
    obtain ⟨_, ha, hc⟩ := bind_eq_ok.1 hc
    cases hc
    obtain ⟨hcolumns, ht, hn, ⟨hi, -⟩ | ⟨-, hdb⟩⟩ := Database.addIndex_cases ha
    · exact ⟨hcolumns, ht, hn, hi⟩
    · have hindexes := congrArg (fun d => d.indexes.length) hdb
      simp at hindexes
  · rintro ⟨hcolumns, ht, hn, hi⟩
    obtain ⟨t, ht⟩ := Option.isSome_iff_exists.1 ht
    have ha : db.addIndex ⟨name, table, columns⟩ = .ok db := by
      simp [Database.addIndex, hcolumns, Database.table_of_table? ht, hn, hi, bind, Except.bind,
        pure, Except.pure]
    have hf : (Statement.execute (.createIndex name table columns)).filled =
        .ok (.createIndex name table columns) := rfl
    exact perform_execute hf (Database.perform_createIndex ha)

/-- Whether something is there already can be told from the schema. -/
theorem Settled.of_schema (h : s.Settled db) (hs : s.Creates) (he : after.schema = db.schema) :
    s.Settled after := by
  have hisNone : ∀ name, db.table? name = none → after.table? name = none := by
    intro name hn
    have hsome := Database.isSome_table?_of_schema he name
    rw [hn] at hsome
    simpa using hsome
  cases hs with
  | table layout =>
    rw [settled_createTable_iff] at h ⊢
    rwa [Database.isSome_table?_of_schema he]
  | index name table columns =>
    rw [settled_createIndex_iff] at h ⊢
    obtain ⟨hcolumns, ht, hn, hi⟩ := h
    rw [Database.isSome_table?_of_schema he, Database.index?_of_schema he]
    exact ⟨hcolumns, ht, hisNone name hn, hi⟩

/-- What has been created is there. -/
theorem Creates.settled (hs : s.Creates) (hp : s.perform db = .ok (after, result)) :
    s.Settled after := by
  obtain ⟨rfl, rfl | ⟨layout, rfl, -, rfl⟩ | ⟨i, rfl, hcolumns, ht, hn, rfl⟩⟩ := hs.cases hp
  · exact hp
  · rw [settled_createTable_iff, Database.table?, List.find?_append, Option.isSome_or]
    simp
  · rw [settled_createIndex_iff]
    refine ⟨hcolumns, ht, hn, ?_⟩
    rw [Database.index?, List.find?_append, Option.isSome_or]
    simp

/-- What is there already stays there when something else is created. No table can be created with
the name of an index. -/
theorem Settled.of_creates (h : s.Settled db) (hs : s.Creates) (ht : t.Creates)
    (hp : t.perform db = .ok (after, result)) : s.Settled after := by
  obtain ⟨rfl, rfl | ⟨layout, rfl, hfree, rfl⟩ | ⟨i, rfl, -, -, -, rfl⟩⟩ := ht.cases hp
  · exact h
  · cases hs with
    | table own =>
      rw [settled_createTable_iff] at h ⊢
      exact Database.isSome_table?_append h _ _
    | index name table columns =>
      rw [settled_createIndex_iff] at h ⊢
      obtain ⟨hcolumns, ht, hn, hi⟩ := h
      refine ⟨hcolumns, Database.isSome_table?_append ht _ _, ?_, hi⟩
      have hname : sameName layout.name name = false := by
        rw [← Bool.not_eq_true]
        intro hsame
        rw [← Database.index?_congr hsame, hfree] at hi
        cases hi
      rw [Database.table?, List.find?_append, show db.tables.find? _ = none from hn]
      simp [hname]
  · cases hs with
    | table own =>
      rw [settled_createTable_iff] at h ⊢
      exact h
    | index name table columns =>
      rw [settled_createIndex_iff] at h ⊢
      obtain ⟨hcolumns, ht, hn, hi⟩ := h
      refine ⟨hcolumns, ht, hn, ?_⟩
      rw [Database.index?, List.find?_append, Option.isSome_or]
      exact Bool.or_eq_true_iff.2 (.inl hi)

end Statement

namespace Database

variable {db after : Database} {ss : List Statement} {rows rows' : List Row}

/-- Statements that have nothing to do have nothing to do together. -/
theorem performAll_of_settled (h : ∀ s ∈ ss, s.Settled db) (rows : List Row) :
    db.performAll rows ss = .ok (db, rows) := by
  induction ss with
  | nil => rfl
  | cons s ss ih =>
    obtain ⟨hs, hss⟩ := List.forall_mem_cons.1 h
    exact (performAll_cons hs rows ss).trans (ih hss)

theorem settled_of_performAll {s : Statement} (h : s.Settled db) (hs : s.Creates)
    (hss : ∀ t ∈ ss, t.Creates) (hp : db.performAll rows ss = .ok (after, rows')) :
    s.Settled after := by
  induction ss generalizing db rows with
  | nil => cases hp; exact h
  | cons t ss ih =>
    obtain ⟨ht, hss⟩ := List.forall_mem_cons.1 hss
    obtain ⟨⟨mid, result⟩, hm, hp⟩ := bind_eq_ok.1 hp
    exact ih (h.of_creates hs ht hm) hss hp

/-- After statements have created what was missing, none of them has anything to do. -/
theorem settled_performAll (hss : ∀ s ∈ ss, s.Creates)
    (hp : db.performAll rows ss = .ok (after, rows')) : ∀ s ∈ ss, s.Settled after := by
  induction ss generalizing db rows with
  | nil => simp
  | cons s ss ih =>
    obtain ⟨hs, hss⟩ := List.forall_mem_cons.1 hss
    obtain ⟨⟨mid, result⟩, hm, hp⟩ := bind_eq_ok.1 hp
    exact List.forall_mem_cons.2
      ⟨settled_of_performAll (hs.settled hm) hs hss hp, ih hss hp⟩

end Database

end AdLedger.Sql
