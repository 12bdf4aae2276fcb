import AdLedger.Proofs.Sql.Statement

/-!
# Tables of a database

Finding the table of a name after one has been replaced, and rows going into a table. A command
names the table it may change (`Command.changes?`); the table of any other name is found after it as
it was before (`Database.table?_performAll`).
-/

namespace AdLedger.Sql

@[simp] theorem sameName_refl (a : String) : sameName a a = true := by simp [sameName]

theorem sameName_comm (a b : String) : sameName a b = sameName b a := by
  simp [sameName, eq_comm]

theorem sameName_congr {a b : String} (h : sameName a b = true) (c : String) :
    sameName a c = sameName b c := by
  simp_all [sameName]

/-- Names of different lengths are not the same. -/
theorem sameName_eq_false_of_length {a b : String} (h : a.length ≠ b.length) :
    sameName a b = false := by
  refine decide_eq_false fun he => h ?_
  have hlen : (a.map Char.toLower).length = (b.map Char.toLower).length :=
    congrArg String.length he
  rwa [String.length_map, String.length_map] at hlen

namespace Database

variable {db : Database} {t : Table} {name : String}

theorem table_of_table? (h : db.table? name = some t) : db.table name = .ok t := by
  simp [Database.table, h]

theorem table?_of_table (h : db.table name = .ok t) : db.table? name = some t := by
  unfold Database.table at h
  split at h
  next ht => cases h; exact ht
  next => cases h

theorem sameName_of_table? (h : db.table? name = some t) : sameName t.layout.name name = true := by
  simpa using List.find?_some h

theorem table?_setTable (db : Database) (t : Table) (name : String) :
    (db.setTable t).table? name =
      if sameName t.layout.name name then (db.table? name).map fun _ => t else db.table? name := by
  unfold setTable table?
  induction db.tables with
  | nil => simp
  | cons u rest ih =>
    rw [List.map_cons, List.find?_cons, List.find?_cons]
    by_cases hu : sameName u.layout.name t.layout.name = true
    · rw [if_pos hu, sameName_congr hu name]
      cases ht : sameName t.layout.name name <;> simp_all
    · rw [if_neg hu]
      cases hn : sameName u.layout.name name with
      | false => exact ih
      | true =>
        have ht : sameName t.layout.name name = false := by
          rw [Bool.eq_false_iff, sameName_comm]
          exact fun h => hu (by rw [sameName_congr hn, h])
        simp [ht]

theorem table?_setTable_self (h : db.table? name = some t) {u : Table}
    (hu : u.layout = t.layout) : (db.setTable u).table? name = some u := by
  rw [table?_setTable, hu, if_pos (sameName_of_table? h), h, Option.map_some]

theorem setTable_setTable (db : Database) (layout : Layout) (rows more : List Record) :
    (db.setTable ⟨layout, rows⟩).setTable ⟨layout, more⟩ = db.setTable ⟨layout, more⟩ := by
  unfold setTable
  simp only [List.map_map, Database.mk.injEq, and_true]
  refine List.map_congr_left fun v _ => ?_
  by_cases hv : sameName v.layout.name layout.name = true <;> simp [hv]

/-- A new table hides none that is there already. -/
theorem table?_addTable (h : db.table? name = some t) {layout : Layout} {after : Database}
    (ha : db.addTable layout = .ok after) : after.table? name = some t := by
  unfold addTable at ha
  split at ha
  · cases ha
  · cases ha
    exact List.find?_append.trans (by rw [show db.tables.find? _ = some t from h]; rfl)

/-- An index is added to a table that exists, unless there is one of its name already. -/
theorem addIndex_cases {i : Index} {after : Database} (ha : db.addIndex i = .ok after) :
    i.columns ≠ [] ∧ (db.table? i.table).isSome = true ∧ db.table? i.name = none ∧
      ((db.index? i.name).isSome = true ∧ after = db ∨
        db.index? i.name = none ∧ after = { db with indexes := db.indexes ++ [i] }) := by
  simp only [addIndex, bind, Except.bind, pure, Except.pure, throw, throwThe,
    MonadExceptOf.throw] at ha
  split at ha
  · cases ha
  next hc =>
    split at ha
    · cases ha
    next t ht =>
      split at ha
      · cases ha
      next hn =>
        refine ⟨by simpa using hc, by simp [table?_of_table ht], by simpa using hn, ?_⟩
        split at ha
        next hi => cases ha; exact .inl ⟨hi, rfl⟩
        next hi =>
          split at ha
          · cases ha
          · cases ha
            exact .inr ⟨by simpa using hi, rfl⟩

theorem tables_addIndex {i : Index} {after : Database} (ha : db.addIndex i = .ok after) :
    after.tables = db.tables := by
  obtain ⟨-, -, -, ⟨-, rfl⟩ | ⟨-, rfl⟩⟩ := addIndex_cases ha <;> rfl

theorem addIndex_eq_ok {i : Index} (hc : i.columns ≠ []) (ht : db.table? i.table = some t)
    (hn : db.table? i.name = none) (hall : ∀ c ∈ i.columns, t.layout.hasColumn c = true) :
    ∃ after, db.addIndex i = .ok after := by
  have hfind : i.columns.find? (fun c => !t.layout.hasColumn c) = none := by
    simpa using hall
  simp only [addIndex, List.isEmpty_iff, hc, table_of_table? ht, hn, hfind, bind, Except.bind,
    pure, Except.pure, Option.isSome_none, Bool.false_eq_true, if_false]
  split
  · exact ⟨_, rfl⟩
  · exact ⟨_, rfl⟩

theorem table?_removeTable (h : db.table? name = some t) {other : String}
    (ho : sameName other name = false) : (db.removeTable other).table? name = some t := by
  unfold removeTable table?
  rw [List.find?_filter]
  refine Eq.trans (congrArg (List.find? · db.tables) (funext fun u => ?_)) h
  cases hu : sameName u.layout.name name with
  | false => simp
  | true =>
    have hn : sameName u.layout.name other = false := by
      rw [sameName_congr hu, sameName_comm, ho]
    simp [hn]

end Database

/-! ## Rows going in -/

namespace Table

/-- Where every column only has to hold something, rows without nulls are allowed. -/
theorem allows_of_required {t : Table} {r : Record}
    (ht : ∀ c ∈ t.layout.columns, c.rule = .required) (hr : ∀ v ∈ r, v ≠ .null) :
    t.allows r = .ok () := by
  have hz : ∀ p ∈ t.layout.columns.zip r, p.1.rule = .required ∧ p.2 ≠ .null := fun p hp =>
    ⟨ht _ (List.of_mem_zip hp).1, hr _ (List.of_mem_zip hp).2⟩
  unfold Table.allows
  revert hz
  induction t.layout.columns.zip r with
  | nil => exact fun _ => rfl
  | cons p rest ih =>
    intro hz
    obtain ⟨⟨hc, hv⟩, hz⟩ := List.forall_mem_cons.1 hz
    obtain ⟨c, v⟩ := p
    rw [List.forM_eq_forM, List.forM_cons]
    cases v <;> simp_all [bind, Except.bind]

theorem insertAll_of_allows {t : Table} {rows : List Record}
    (h : ∀ (u : Table), u.layout = t.layout → ∀ r ∈ rows, u.allows r = .ok ()) :
    t.insertAll rows = .ok { t with rows := t.rows ++ rows } := by
  induction rows generalizing t with
  | nil => simp [insertAll]
  | cons r rows ih =>
    have hr := h t rfl r List.mem_cons_self
    have hrest : ∀ u : Table, u.layout = (t.append r).layout → ∀ s ∈ rows, u.allows s = .ok () :=
      fun u hu s hs => h u hu s (List.mem_cons_of_mem r hs)
    simp only [insertAll, hr, bind, Except.bind, ih hrest]
    simp [append]

end Table

theorem forM_eq_ok {ε α : Type} {f : α → Except ε Unit} {xs : List α} (h : xs.forM f = .ok ())
    {x : α} (hx : x ∈ xs) : f x = .ok () := by
  induction xs with
  | nil => cases hx
  | cons y ys ih =>
    rw [List.forM_eq_forM, List.forM_cons] at h
    obtain ⟨_, hy, hys⟩ := bind_eq_ok.1 h
    obtain rfl | hx := List.mem_cons.1 hx
    · exact hy
    · exact ih hys hx

namespace Table

/-- A row that is allowed has something in every column that requires it. -/
theorem ne_null_of_allows {t : Table} {r : Record} (h : t.allows r = .ok ()) {c : Column}
    {v : Value} (hm : (c, v) ∈ t.layout.columns.zip r) (hc : c.rule = .required) : v ≠ .null := by
  rintro rfl
  have hnull := forM_eq_ok h hm
  simp [hc] at hnull

theorem allows_of_insertAll {t u : Table} {rows : List Record} (h : t.insertAll rows = .ok u)
    {r : Record} (hr : r ∈ rows) : ∃ v : Table, v.layout = t.layout ∧ v.allows r = .ok () := by
  induction rows generalizing t with
  | nil => cases hr
  | cons s rows ih =>
    obtain ⟨_, hs, hrest⟩ := bind_eq_ok.1 h
    obtain rfl | hr := List.mem_cons.1 hr
    · exact ⟨t, rfl, hs⟩
    · obtain ⟨v, hv, ha⟩ := ih hrest hr
      exact ⟨v, hv.trans rfl, ha⟩

end Table

theorem Database.records_eq_ok {t : Table} {names : List String} {rows result : List Record}
    (h : Database.records t names rows = .ok result) :
    result = rows.map (t.layout.record names) := by
  simp only [Database.records, bind, Except.bind, pure, Except.pure, throw, throwThe,
    MonadExceptOf.throw] at h
  repeat' split at h
  all_goals first | cases h; rfl | cases h

/-! ## What commands do -/

namespace Database

variable {db : Database} {t : Table} {name : String} {names : List String}

theorem perform_createTable_of_table {layout : Layout}
    (ht : (db.table? layout.name).isSome = true) :
    db.perform (.createTable layout) = .ok (db, []) := by
  simp only [perform, ht, if_true]

theorem perform_createTable {layout : Layout} (ht : db.table? layout.name = none)
    (hi : db.index? layout.name = none) :
    db.perform (.createTable layout) =
      .ok ({ db with tables := db.tables ++ [⟨layout, []⟩] }, []) := by
  simp only [perform, addTable, ht, hi]
  rfl

theorem perform_createTable_of_index {layout : Layout} (ht : db.table? layout.name = none)
    (hi : (db.index? layout.name).isSome = true) :
    db.perform (.createTable layout) = .error (.indexExists layout.name) := by
  simp only [perform, addTable, ht, hi]
  rfl

theorem perform_createIndex {index table : String} {after : Database}
    (ha : db.addIndex ⟨index, table, names⟩ = .ok after) :
    db.perform (.createIndex index table names) = .ok (after, []) := by
  simp only [perform, ha]
  rfl

theorem perform_insert (ht : db.table? name = some t) {values rows : List Record} {u : Table}
    (hr : records t names values = .ok rows) (hu : t.insertAll rows = .ok u) :
    db.perform (.insert name names values) = .ok (db.setTable u, []) := by
  simp only [perform, table_of_table? ht, bind, Except.bind, hr, hu]
  rfl

theorem perform_insertOrIgnore (ht : db.table? name = some t) {values rows : List Record}
    (hr : records t names values = .ok rows) :
    db.perform (.insertOrIgnore name names values) =
      .ok (db.setTable (t.insertAllowed rows), []) := by
  simp only [perform, table_of_table? ht, bind, Except.bind, hr]
  rfl

theorem perform_delete (ht : db.table? name = some t) {condition : Condition Value}
    {test : Record → Bool} (hc : condition.test t.layout = .ok test) :
    db.perform (.delete name condition) =
      .ok (db.setTable { t with rows := t.rows.filter fun r => !test r }, []) := by
  simp only [perform, table_of_table? ht, bind, Except.bind, hc]
  rfl

theorem perform_select (ht : db.table? name = some t) {condition : Condition Value}
    {test : Record → Bool} {order : Order} {sorted result : List Record}
    (hc : condition.test t.layout = .ok test)
    (ho : order.sort t.layout (t.rows.filter test) = .ok sorted)
    (hp : project t.layout names sorted = .ok result) :
    db.perform (.select names name condition order) = .ok (db, result) := by
  simp only [perform, table_of_table? ht, bind, Except.bind, hc, ho, hp]
  rfl

theorem perform_best (ht : db.table? name = some t) {condition : Condition Value}
    {test : Record → Bool} {ranking : Ranking} {ranked group : Nat} {order : Order}
    {sorted result : List Record} (hc : condition.test t.layout = .ok test)
    (hr : t.layout.position ranking.column = .ok ranked)
    (hg : t.layout.position ranking.group = .ok group)
    (ho : order.sort t.layout (winners (fun r => ranking.rank (r.get ranked)) (·.get group)
      (t.rows.filter test)) = .ok sorted)
    (hp : project t.layout names sorted = .ok result) :
    db.perform (.best names name condition ranking order) = .ok (db, result) := by
  simp only [perform, table_of_table? ht, bind, Except.bind, hc, hr, hg, ho, hp]
  rfl

theorem perform_greatest (ht : db.table? name = some t) {column : String} {i : Nat}
    (hi : t.layout.position column = .ok i) :
    db.perform (.greatest column name) =
      .ok (db, [[(t.rows.map (Record.get · i)).foldl greater .null]]) := by
  simp only [perform, table_of_table? ht, bind, Except.bind, hi]
  rfl

end Database

/-! ## What a command needs -/

/-- The table that has to exist for a command. -/
def Command.needs? {τ : Type} : Command τ → Option String
  | createIndex _ table _ => some table
  | dropTable name | insert name _ _ | insertOrIgnore name _ _ | delete name _ => some name
  | select _ name _ _ | greatest _ name | best _ name _ _ _ => some name
  | _ => none

theorem Command.needs?_bare {τ : Type} (c : Command τ) : c.bare.needs? = c.needs? := by
  cases c <;> rfl

theorem Command.needs?_fill {c : Command Term} {values : List Value} {filled : Command Value}
    (h : c.fill values = some filled) : filled.needs? = c.needs? := by
  rw [← needs?_bare, bare_fill h, needs?_bare]

namespace Database

variable {db after : Database}

/-- A command is not carried out where the table that it needs does not exist. -/
theorem table?_ne_none_of_needs? {c : Command Value} {records : List Record} {name : String}
    (hc : c.needs? = some name) (h : db.perform c = .ok (after, records)) :
    db.table? name ≠ none := by
  refine Option.isSome_iff_ne_none.1 ?_
  cases c <;> cases hc
  case createIndex =>
    obtain ⟨_, ha, -⟩ := bind_eq_ok.1 h
    exact (addIndex_cases ha).2.1
  all_goals
    obtain ⟨t, ht, -⟩ := bind_eq_ok.1 h
    exact Option.isSome_of_eq_some (table?_of_table ht)

end Database

/-! ## What a command leaves alone -/

/-- The table that a command may take away or whose rows it may change. -/
def Command.changes? {τ : Type} : Command τ → Option String
  | dropTable name | insert name _ _ | insertOrIgnore name _ _ | delete name _ => some name
  | _ => none

theorem Command.changes?_bare {τ : Type} (c : Command τ) : c.bare.changes? = c.changes? := by
  cases c <;> rfl

theorem Command.changes?_fill {c : Command Term} {values : List Value} {filled : Command Value}
    (h : c.fill values = some filled) : filled.changes? = c.changes? := by
  rw [← changes?_bare, bare_fill h, changes?_bare]

/-- The layout of the table that a command may create. -/
def Command.newTable? {τ : Type} : Command τ → Option Layout
  | createTable layout | createNewTable layout => some layout
  | _ => none

theorem Command.newTable?_bare {τ : Type} (c : Command τ) : c.bare.newTable? = c.newTable? := by
  cases c <;> rfl

theorem Command.newTable?_fill {c : Command Term} {values : List Value} {filled : Command Value}
    (h : c.fill values = some filled) : filled.newTable? = c.newTable? := by
  rw [← newTable?_bare, bare_fill h, newTable?_bare]

/-- Whether a command creates tables or indexes or takes them away. -/
def Command.changesSchema {τ : Type} : Command τ → Bool
  | createTable _ | createNewTable _ | createIndex _ _ _ | dropTable _ | dropIndex _ => true
  | _ => false

theorem Command.changesSchema_bare {τ : Type} (c : Command τ) :
    c.bare.changesSchema = c.changesSchema := by
  cases c <;> rfl

theorem Command.changesSchema_fill {c : Command Term} {values : List Value}
    {filled : Command Value} (h : c.fill values = some filled) :
    filled.changesSchema = c.changesSchema := by
  rw [← changesSchema_bare, bare_fill h, changesSchema_bare]

/-- A statement that is carried out does what its command does once it has been filled in. -/
theorem Statement.filled_of_perform {s : Statement} {db after : Database}
    {result : Option (List Row)} (h : s.perform db = .ok (after, result)) :
    ∃ filled values records, s.command.fill values = some filled ∧
      db.perform filled = .ok (after, records) := by
  obtain ⟨records, hcarry⟩ := carryOut_of_perform h
  obtain ⟨filled, hf, hp⟩ := bind_eq_ok.1 hcarry
  obtain ⟨values, hfill, -⟩ := fill_of_filled hf
  exact ⟨filled, values, records, hfill, hp⟩

/-- A statement that does not change the table of a name. -/
def Statement.Spares (name : String) (s : Statement) : Prop :=
  ∀ n, s.command.changes? = some n → sameName n name = false

/-- A statement that creates a table of a layout's name with this layout, if it creates it. -/
def Statement.Founds (layout : Layout) (s : Statement) : Prop :=
  ∀ l, s.command.newTable? = some l → sameName l.name layout.name = true → l = layout

namespace Database

variable {db after : Database} {t : Table} {name : String}

theorem table?_setTable_other (h : db.table? name = some t) {u : Table}
    (hu : sameName u.layout.name name = false) : (db.setTable u).table? name = some t := by
  rw [table?_setTable, hu]
  exact h

theorem layout_insertAll {t u : Table} {rows : List Record} (h : t.insertAll rows = .ok u) :
    u.layout = t.layout := by
  induction rows generalizing t with
  | nil => cases h; rfl
  | cons r rows ih =>
    simp only [Table.insertAll, bind, Except.bind] at h
    split at h
    · cases h
    · exact (ih h).trans rfl

theorem layout_insertAllowed (t : Table) (rows : List Record) :
    (t.insertAllowed rows).layout = t.layout := by
  induction rows generalizing t with
  | nil => rfl
  | cons r rows ih =>
    simp only [Table.insertAllowed]
    split
    · exact (ih _).trans rfl
    · exact ih _

/-- A command that keeps the schema changes nothing, or replaces the rows of one table. -/
theorem perform_rows {c : Command Value} {rows : List Record} (hc : c.changesSchema = false)
    (hp : db.perform c = .ok (after, rows)) :
    after = db ∨ ∃ n t u, c.changes? = some n ∧ db.table? n = some t ∧ u.layout = t.layout ∧
      after = db.setTable u := by
  cases c with
  | insert n columns rows =>
    obtain ⟨t, ht, hp⟩ := bind_eq_ok.1 hp
    obtain ⟨rs, -, hp⟩ := bind_eq_ok.1 hp
    obtain ⟨u, hu, hp⟩ := bind_eq_ok.1 hp
    cases hp
    exact .inr ⟨n, t, u, rfl, table?_of_table ht, layout_insertAll hu, rfl⟩
  | insertOrIgnore n columns rows =>
    obtain ⟨t, ht, hp⟩ := bind_eq_ok.1 hp
    obtain ⟨rs, -, hp⟩ := bind_eq_ok.1 hp
    cases hp
    exact .inr ⟨n, t, _, rfl, table?_of_table ht, layout_insertAllowed t rs, rfl⟩
  | delete n condition =>
    obtain ⟨t, ht, hp⟩ := bind_eq_ok.1 hp
    obtain ⟨test, -, hp⟩ := bind_eq_ok.1 hp
    cases hp
    exact .inr ⟨n, t, ⟨t.layout, t.rows.filter fun r => !test r⟩, rfl, table?_of_table ht, rfl,
      rfl⟩
  | select columns n condition order =>
    obtain ⟨t, -, hp⟩ := bind_eq_ok.1 hp
    obtain ⟨test, -, hp⟩ := bind_eq_ok.1 hp
    obtain ⟨sorted, -, hp⟩ := bind_eq_ok.1 hp
    obtain ⟨projected, -, hp⟩ := bind_eq_ok.1 hp
    cases hp
    exact .inl rfl
  | greatest column n =>
    obtain ⟨t, -, hp⟩ := bind_eq_ok.1 hp
    obtain ⟨i, -, hp⟩ := bind_eq_ok.1 hp
    cases hp
    exact .inl rfl
  | best columns n condition ranking order =>
    obtain ⟨t, -, hp⟩ := bind_eq_ok.1 hp
    obtain ⟨test, -, hp⟩ := bind_eq_ok.1 hp
    obtain ⟨ranked, -, hp⟩ := bind_eq_ok.1 hp
    obtain ⟨group, -, hp⟩ := bind_eq_ok.1 hp
    obtain ⟨sorted, -, hp⟩ := bind_eq_ok.1 hp
    obtain ⟨projected, -, hp⟩ := bind_eq_ok.1 hp
    cases hp
    exact .inl rfl
  | other text => cases hp
  | _ => cases hc

/-- What a command can do to the tables: nothing, add a new one, take one away, or replace the rows
of one. -/
theorem perform_cases {c : Command Value} {rows : List Record}
    (hp : db.perform c = .ok (after, rows)) :
    after.tables = db.tables ∨
    (∃ layout, c.newTable? = some layout ∧ db.addTable layout = .ok after) ∨
    (∃ n, c.changes? = some n ∧ after = db.removeTable n) ∨
    (∃ n t u, c.changes? = some n ∧ db.table? n = some t ∧ u.layout = t.layout ∧
      after = db.setTable u) := by
  cases c with
  | createTable layout =>
    simp only [perform] at hp
    split at hp
    · cases hp
      exact .inl rfl
    · obtain ⟨db', ha, hp⟩ := bind_eq_ok.1 hp
      cases hp
      exact .inr (.inl ⟨layout, rfl, ha⟩)
  | createNewTable layout =>
    simp only [perform] at hp
    split at hp
    · cases hp
    · obtain ⟨db', ha, hp⟩ := bind_eq_ok.1 hp
      cases hp
      exact .inr (.inl ⟨layout, rfl, ha⟩)
  | createIndex i table columns =>
    obtain ⟨db', ha, hp⟩ := bind_eq_ok.1 hp
    cases hp
    exact .inl (tables_addIndex ha)
  | dropTable n =>
    obtain ⟨t, -, hp⟩ := bind_eq_ok.1 hp
    cases hp
    exact .inr (.inr (.inl ⟨n, rfl, rfl⟩))
  | dropIndex n =>
    simp only [perform] at hp
    split at hp
    · cases hp
      exact .inl rfl
    · cases hp
  | _ =>
    obtain rfl | hset := perform_rows rfl hp
    · exact .inl rfl
    · exact .inr (.inr (.inr hset))

/-- A command that does not change the table of a name leaves it as it is. -/
theorem table?_perform (h : db.table? name = some t) {c : Command Value} {rows : List Record}
    (hc : ∀ n, c.changes? = some n → sameName n name = false)
    (hp : db.perform c = .ok (after, rows)) : after.table? name = some t := by
  obtain ht | ⟨layout, -, ha⟩ | ⟨n, hn, rfl⟩ | ⟨n, v, u, hn, hv, hu, rfl⟩ := perform_cases hp
  · rwa [table?, ht]
  · exact table?_addTable h ha
  · exact table?_removeTable h (hc n hn)
  · refine table?_setTable_other h ?_
    rw [hu, sameName_congr (sameName_of_table? hv), hc n hn]

theorem table?_performStatement (h : db.table? name = some t) {s : Statement}
    (hs : s.Spares name) {rows : Option (List Row)} (hp : s.perform db = .ok (after, rows)) :
    after.table? name = some t := by
  obtain ⟨filled, values, records, hfill, hp⟩ := Statement.filled_of_perform hp
  have hc : filled.changes? = s.command.changes? := Command.changes?_fill hfill
  exact table?_perform h (fun n hn => hs n (hc ▸ hn)) hp

/-- Statements that do not change the table of a name leave it as it is. -/
theorem table?_performAll (h : db.table? name = some t) {ss : List Statement}
    (hs : ∀ s ∈ ss, s.Spares name) {rows rows' : List Row}
    (hp : db.performAll rows ss = .ok (after, rows')) : after.table? name = some t := by
  induction ss generalizing db rows with
  | nil => cases hp; exact h
  | cons s ss ih =>
    obtain ⟨hs, hss⟩ := List.forall_mem_cons.1 hs
    obtain ⟨⟨db', result⟩, hd, hp⟩ := bind_eq_ok.1 hp
    exact ih (table?_performStatement h hs hd) hss hp

/-! ### Rows of a table -/

/-- The rows of the table of a name, none without it. -/
def rowsOf (db : Database) (name : String) : List Record :=
  ((db.table? name).map Table.rows).getD []

theorem rowsOf_of_table? (h : db.table? name = some t) : db.rowsOf name = t.rows := by
  rw [rowsOf, h]
  rfl

theorem table?_setTable_of_none (h : db.table? name = none) (u : Table) :
    (db.setTable u).table? name = none := by
  rw [table?_setTable, h]
  split <;> rfl

theorem table?_removeTable_of_none (h : db.table? name = none) (other : String) :
    (db.removeTable other).table? name = none := by
  unfold removeTable table? at *
  rw [List.find?_eq_none] at h ⊢
  exact fun u hu => h u (List.mem_of_mem_filter hu)

/-- A table that is not there is not there after a command either, unless the command has created
it. -/
theorem table?_perform_of_none (h : db.table? name = none) {c : Command Value}
    {rows : List Record} (hp : db.perform c = .ok (after, rows)) :
    after.table? name = none ∨ ∃ layout, c.newTable? = some layout ∧
      sameName layout.name name = true ∧ after.table? name = some ⟨layout, []⟩ := by
  obtain ht | ⟨layout, hc, ha⟩ | ⟨n, -, rfl⟩ | ⟨n, v, u, -, -, -, rfl⟩ := perform_cases hp
  · exact .inl (by rw [table?, ht, ← table?, h])
  · unfold addTable at ha
    split at ha
    · cases ha
    · cases ha
      rw [table?, List.find?_append, ← table?, h, Option.none_or, List.find?_cons]
      split
      next hn => exact .inr ⟨layout, hc, hn, rfl⟩
      next => exact .inl rfl
  · exact .inl (table?_removeTable_of_none h n)
  · exact .inl (table?_setTable_of_none h u)

/-- A statement that neither changes the table of a name nor creates one leaves the name as it is. -/
theorem table?_performStatement_eq {s : Statement} (hs : s.Spares name)
    (hnew : ∀ l, s.command.newTable? = some l → sameName l.name name = false)
    {rows : Option (List Row)} (hp : s.perform db = .ok (after, rows)) :
    after.table? name = db.table? name := by
  cases h : db.table? name with
  | some t => exact table?_performStatement h hs hp
  | none =>
    obtain ⟨filled, values, records, hfill, hp⟩ := Statement.filled_of_perform hp
    obtain hnone | ⟨layout, hc, hn, -⟩ := table?_perform_of_none h hp
    · exact hnone
    · rw [Command.newTable?_fill hfill] at hc
      cases (hnew layout hc).symm.trans hn

/-- A table that is not there has no rows after a command that is not about it, even if the command
creates it. -/
theorem rowsOf_perform {c : Command Value} {rows : List Record}
    (hc : ∀ n, c.changes? = some n → sameName n name = false)
    (hp : db.perform c = .ok (after, rows)) : after.rowsOf name = db.rowsOf name := by
  cases h : db.table? name with
  | some t => rw [rowsOf_of_table? h, rowsOf_of_table? (table?_perform h hc hp)]
  | none =>
    obtain hnone | ⟨layout, -, -, hnew⟩ := table?_perform_of_none h hp
    · rw [rowsOf, rowsOf, h, hnone]
    · rw [rowsOf, rowsOf, h, hnew]
      rfl

/-- Statements that do not change the table of a name keep its rows, carried out together or not at
all. -/
theorem rowsOf_performAll {ss : List Statement} (hs : ∀ s ∈ ss, s.Spares name)
    {rows rows' : List Row} (hp : db.performAll rows ss = .ok (after, rows')) :
    after.rowsOf name = db.rowsOf name := by
  induction ss generalizing db rows with
  | nil =>
    cases hp
    rfl
  | cons s ss ih =>
    obtain ⟨hs, hss⟩ := List.forall_mem_cons.1 hs
    obtain ⟨⟨mid, result⟩, hm, hp⟩ := bind_eq_ok.1 hp
    obtain ⟨filled, values, records, hfill, hm⟩ := Statement.filled_of_perform hm
    have hc : filled.changes? = s.command.changes? := Command.changes?_fill hfill
    exact (ih hss hp).trans (rowsOf_perform (fun n hn => hs n (hc ▸ hn)) hm)

/-- Statements that create a table with one layout only, and do not change it, have created it so or
not at all. -/
theorem table?_performAll_of_none {layout : Layout} (h : db.table? layout.name = none)
    {ss : List Statement} (hs : ∀ s ∈ ss, s.Spares layout.name ∧ s.Founds layout)
    {rows rows' : List Row} (hp : db.performAll rows ss = .ok (after, rows')) :
    after.table? layout.name = none ∨ after.table? layout.name = some ⟨layout, []⟩ := by
  induction ss generalizing db rows with
  | nil =>
    cases hp
    exact .inl h
  | cons s ss ih =>
    obtain ⟨⟨-, hfounds⟩, hss⟩ := List.forall_mem_cons.1 hs
    obtain ⟨⟨mid, result⟩, hm, hp⟩ := bind_eq_ok.1 hp
    obtain ⟨filled, values, records, hfill, hm⟩ := Statement.filled_of_perform hm
    obtain hnone | ⟨other, hc, hn, hnew⟩ := table?_perform_of_none h hm
    · exact ih hnone hss hp
    · rw [Command.newTable?_fill hfill] at hc
      cases hfounds other hc hn
      exact .inr (table?_performAll hnew (fun s hmem => (hss s hmem).1) hp)

theorem rowsOf_transact {ss : List Statement} (hs : ∀ s ∈ ss, s.Spares name) :
    (db.transact ss).2.rowsOf name = db.rowsOf name := by
  rw [transact_eq]
  split
  next hp => exact rowsOf_performAll hs hp
  next => rfl

end Database

end AdLedger.Sql
