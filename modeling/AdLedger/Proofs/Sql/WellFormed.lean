import AdLedger.Proofs.Sql.Schema

/-!
# Well-formed databases

The names of the tables and indexes of a database are all different, and every index belongs to a
table. A new database is like that, and every command, statement and transaction keeps it so
(`Database.WellFormed.transactions`).
-/

namespace AdLedger.Sql.Database

/-- Names are told apart, and indexes belong to tables. -/
structure WellFormed (db : Database) : Prop where
  tables : db.Distinct
  indexes : db.indexes.Pairwise fun i j => sameName i.name j.name = false
  apart : ∀ i ∈ db.indexes, db.table? i.name = none
  placed : ∀ i ∈ db.indexes, (db.table? i.table).isSome = true

variable {db after : Database} {name : String}

theorem wellFormed_empty : Database.empty.WellFormed where
  tables := .nil
  indexes := .nil
  apart := nofun
  placed := nofun

namespace WellFormed

/-- Two indexes of one name are one index. -/
theorem eq_of_sameName (h : db.WellFormed) {i j : Index} (hi : i ∈ db.indexes)
    (hj : j ∈ db.indexes) (hn : sameName i.name j.name = true) : i = j := by
  by_contra hne
  have : Std.Symm fun i j : Index => sameName i.name j.name = false :=
    ⟨fun i j h => by rwa [sameName_comm]⟩
  have hfalse := h.indexes.forall hi hj hne
  rw [hn] at hfalse
  cases hfalse

theorem nodup (h : db.WellFormed) : db.indexes.Nodup :=
  h.indexes.imp fun hn he => by
    rw [he, sameName_refl] at hn
    cases hn

theorem of_schema (h : db.WellFormed) (he : after.schema = db.schema) : after.WellFormed := by
  have hindexes : after.indexes = db.indexes := congrArg Schema.indexes he
  refine ⟨h.tables.of_schema he, hindexes ▸ h.indexes, fun i hi => ?_, fun i hi => ?_⟩
  · rw [hindexes] at hi
    rw [← Option.not_isSome_iff_eq_none, isSome_table?_of_schema he,
      Option.not_isSome_iff_eq_none]
    exact h.apart i hi
  · rw [hindexes] at hi
    rw [isSome_table?_of_schema he]
    exact h.placed i hi

theorem addTable (h : db.WellFormed) {layout : Layout} (ht : db.table? layout.name = none)
    (ha : db.addTable layout = .ok after) : after.WellFormed := by
  unfold Database.addTable at ha
  split at ha
  · cases ha
  next hi =>
    cases ha
    simp only [Option.not_isSome_iff_eq_none, index?, List.find?_eq_none] at hi
    refine ⟨?_, h.indexes, fun i hmem => ?_, fun i hmem => ?_⟩
    · rw [table?, List.find?_eq_none] at ht
      simp only [Distinct, List.map_append, List.map_cons, List.map_nil]
      refine List.pairwise_append.2 ⟨h.tables, List.pairwise_singleton _ _, fun l hl m hm => ?_⟩
      obtain ⟨t, htable, rfl⟩ := List.mem_map.1 hl
      rw [List.mem_singleton.1 hm]
      exact Bool.eq_false_iff.2 (ht t htable)
    · have hname := hi i hmem
      rw [sameName_comm] at hname
      rw [table?, List.find?_append, show db.tables.find? _ = none from h.apart i hmem]
      simp [hname]
    · exact isSome_table?_append (h.placed i hmem) _ _

theorem addIndex (h : db.WellFormed) {i : Index} (ha : db.addIndex i = .ok after) :
    after.WellFormed := by
  obtain ⟨-, ht, hn, ⟨-, rfl⟩ | ⟨hi, rfl⟩⟩ := addIndex_cases ha
  · exact h
  · rw [index?, List.find?_eq_none] at hi
    refine ⟨h.tables, ?_, fun j hj => ?_, fun j hj => ?_⟩
    · refine List.pairwise_append.2
        ⟨h.indexes, List.pairwise_singleton _ _, fun j hj k hk => ?_⟩
      rw [List.mem_singleton.1 hk]
      exact Bool.eq_false_iff.2 (hi j hj)
    · obtain hj | hj := List.mem_append.1 hj
      · exact h.apart j hj
      · rw [List.mem_singleton.1 hj]
        exact hn
    · obtain hj | hj := List.mem_append.1 hj
      · exact h.placed j hj
      · rw [List.mem_singleton.1 hj]
        exact ht

theorem removeTable (h : db.WellFormed) (name : String) : (db.removeTable name).WellFormed where
  tables := List.Pairwise.sublist (List.filter_sublist.map _) h.tables
  indexes := h.indexes.filter _
  apart i hi := table?_removeTable_of_none (h.apart i (List.mem_of_mem_filter hi)) name
  placed i hi := by
    obtain ⟨hmem, hother⟩ := List.mem_filter.1 hi
    obtain ⟨t, ht⟩ := Option.isSome_iff_exists.1 (h.placed i hmem)
    have hother : sameName name i.table = false := by
      rw [sameName_comm]
      simpa using hother
    exact Option.isSome_of_eq_some (table?_removeTable ht hother)

theorem removeIndex (h : db.WellFormed) (name : String) : (db.removeIndex name).WellFormed where
  tables := h.tables
  indexes := h.indexes.filter _
  apart i hi := h.apart i (List.mem_of_mem_filter hi)
  placed i hi := h.placed i (List.mem_of_mem_filter hi)

theorem perform (h : db.WellFormed) {c : Command Value} {rows : List Record}
    (hp : db.perform c = .ok (after, rows)) : after.WellFormed := by
  cases hc : c.changesSchema with
  | false =>
    obtain rfl | ⟨n, t, u, -, ht, hu, rfl⟩ := perform_rows hc hp
    · exact h
    · exact h.of_schema (schema_setTable h.tables ht hu)
  | true =>
    cases c with
    | createTable layout =>
      simp only [Database.perform] at hp
      split at hp
      next => cases hp; exact h
      next ht =>
        obtain ⟨_, ha, hp⟩ := bind_eq_ok.1 hp
        cases hp
        exact h.addTable (by simpa using ht) ha
    | createNewTable layout =>
      simp only [Database.perform] at hp
      split at hp
      next => cases hp
      next ht =>
        obtain ⟨_, ha, hp⟩ := bind_eq_ok.1 hp
        cases hp
        exact h.addTable (by simpa using ht) ha
    | createIndex i table columns =>
      obtain ⟨_, ha, hp⟩ := bind_eq_ok.1 hp
      cases hp
      exact h.addIndex ha
    | dropTable n =>
      obtain ⟨t, -, hp⟩ := bind_eq_ok.1 hp
      cases hp
      exact h.removeTable n
    | dropIndex n =>
      simp only [Database.perform] at hp
      split at hp
      · cases hp
        exact h.removeIndex n
      · cases hp
    | _ => cases hc

theorem performStatement (h : db.WellFormed) {s : Statement} {result : Option (List Row)}
    (hp : s.perform db = .ok (after, result)) : after.WellFormed := by
  obtain ⟨filled, values, records, -, hp⟩ := Statement.filled_of_perform hp
  exact h.perform hp

theorem performAll (h : db.WellFormed) {ss : List Statement} {rows rows' : List Row}
    (hp : db.performAll rows ss = .ok (after, rows')) : after.WellFormed := by
  induction ss generalizing db rows with
  | nil => cases hp; exact h
  | cons s ss ih =>
    obtain ⟨⟨mid, result⟩, hm, hp⟩ := bind_eq_ok.1 hp
    exact ih (h.performStatement hm) hp

/-- A transaction keeps a database well formed, carried out or not. -/
theorem transact (h : db.WellFormed) (ss : List Statement) : (db.transact ss).2.WellFormed := by
  rw [Database.transact_eq]
  split
  next hp => exact h.performAll hp
  next => exact h

/-- Any transactions do, one after the other. -/
theorem transactions (h : db.WellFormed) (work : List (List Statement)) :
    (work.foldl (fun (db : Database) ss => (db.transact ss).2) db).WellFormed := by
  induction work generalizing db with
  | nil => exact h
  | cons ss work ih => exact ih (h.transact ss)

end WellFormed
end AdLedger.Sql.Database
