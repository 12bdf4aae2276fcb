import AdLedger.Proofs.Sql.Schema
import AdLedger.Store.Schema
import Mathlib.Data.List.Forall2

/-!
# Names of indexes

An index is named after its table and its columns, with underscores between the names. Names may
have underscores in them, so that of all the names together only the words between underscores can
be told, not where one name ends and the next one begins (`sameName_name_iff`). A statement that
creates an index does nothing where there is an index of its name, and so two targets both have
indexes of their own afterwards if and only if they differ in their words and their names have not
been taken; the second of two with the same words is passed over in silence (`indexed_apart_iff`).
-/

namespace AdLedger.Store

open Sql

/-- Some columns of a table, in the order in which an index is to have them. -/
structure Target where
  table : String
  columns : List String

/-- The words of a name between its underscores, in lower case. -/
def wordsOf (name : String) : List (List Char) := (name.toList.map Char.toLower).splitOn '_'

namespace Target

def name (t : Target) : String := indexName t.table t.columns

/-- The index that is wanted. -/
def index (t : Target) : Index := ⟨t.name, t.table, t.columns⟩

def statement (t : Target) : Statement := createIndex t.table t.columns

/-- The words of all names, one after the other. -/
def words (t : Target) : List (List Char) := (t.table :: t.columns).flatMap wordsOf

/-- No name has an underscore. -/
def Unbroken (t : Target) : Prop := ∀ name ∈ t.table :: t.columns, '_' ∉ name.toList

/-- The beginning of names that the engine keeps for itself. -/
def reserved : List Char := "sqlite_".toList

/-- The table is there and has the columns, and the index may be named as it is. -/
structure Fits (t : Target) (db : Database) : Prop where
  nonempty : t.columns ≠ []
  columns : ∃ table, db.table? t.table = some table ∧
    ∀ c ∈ t.columns, table.layout.hasColumn c = true
  unreserved : ¬ reserved <+: t.name.toList.map Char.toLower

/-- An index is over the columns of a target, all of them and no others, in their order. -/
structure Covered (t : Target) (i : Index) : Prop where
  table : sameName i.table t.table = true
  columns : List.Forall₂ (fun c d => sameName c d = true) i.columns t.columns

/-- The name has not been taken by a table, nor by an index over anything else. -/
structure Vacant (t : Target) (db : Database) : Prop where
  noTable : db.table? t.name = none
  noOther : ∀ i, db.index? t.name = some i → t.Covered i

/-- Two targets have indexes of their own. -/
def Apart (t u : Target) (db : Database) : Prop :=
  ∃ i j, db.index? t.name = some i ∧ db.index? u.name = some j ∧ t.Covered i ∧ u.Covered j ∧ i ≠ j

variable {t u : Target} {db after : Database} {ts : List Target}

/-! ## Words -/

/-- Names with underscores between them are told apart by their words. By induction on the names:
the underscore between the first two is where the words of the first one end. -/
theorem wordsOf_intercalate {names : List String} (h : names ≠ []) :
    wordsOf ("_".intercalate names) = names.flatMap wordsOf := by
  induction names with
  | nil => exact absurd rfl h
  | cons name rest ih =>
    by_cases hrest : rest = []
    · simp [hrest]
    · have hlower : ("_".intercalate (name :: rest)).toList.map Char.toLower =
          name.toList.map Char.toLower ++
            '_' :: ("_".intercalate rest).toList.map Char.toLower := by
        rw [String.intercalate_cons_of_ne_nil hrest]
        simp
      rw [wordsOf, hlower, List.splitOn_append_cons_self, List.flatMap_cons, ← ih hrest]
      rfl

theorem sameName_iff (a b : String) :
    sameName a b = true ↔ a.toList.map Char.toLower = b.toList.map Char.toLower := by
  have hlower (s : String) : s.toLower.toList = s.toList.map Char.toLower := String.toList_map
  rw [sameName, decide_eq_true_eq, ← String.toList_inj, hlower, hlower]

theorem wordsOf_eq_iff (a b : String) : wordsOf a = wordsOf b ↔ sameName a b = true := by
  rw [sameName_iff]
  refine ⟨fun h => ?_, fun h => congrArg (List.splitOn '_') h⟩
  have hjoined := congrArg (List.intercalate ['_']) h
  rwa [wordsOf, wordsOf, List.intercalate_splitOn, List.intercalate_splitOn] at hjoined

theorem eq_underscore_of_toLower {c : Char} (h : c.toLower = '_') : c = '_' := by
  unfold Char.toLower at h
  split at h
  next hc =>
    -- no capital letter becomes an underscore
    have hval : c.val + 32 = 95 := congrArg Char.val h
    have hupper : 65 ≤ c.val ∧ c.val ≤ 90 := hc
    grind
  next => exact h

/-- A name without underscores is a word itself. -/
theorem wordsOf_of_unbroken {name : String} (h : '_' ∉ name.toList) :
    wordsOf name = [name.toList.map Char.toLower] := by
  refine List.splitOn_eq_singleton fun hmem => ?_
  obtain ⟨c, hc, hlower⟩ := List.mem_map.1 hmem
  exact h (eq_underscore_of_toLower hlower ▸ hc)

theorem name_eq (h : t.columns ≠ []) :
    t.name = "_".intercalate (t.table :: t.columns) ++ "_index" := by
  rw [String.intercalate_cons_of_ne_nil h]
  rfl

theorem sameName_append_right (a b ending : String) :
    sameName (a ++ ending) (b ++ ending) = sameName a b := by
  rw [Bool.eq_iff_iff, sameName_iff, sameName_iff]
  simp

/-- Indexes have the same name if and only if the words of their targets are the same. -/
theorem sameName_name_iff (ht : t.columns ≠ []) (hu : u.columns ≠ []) :
    sameName t.name u.name = true ↔ t.words = u.words := by
  rw [name_eq ht, name_eq hu, sameName_append_right, ← wordsOf_eq_iff,
    wordsOf_intercalate (List.cons_ne_nil _ _), wordsOf_intercalate (List.cons_ne_nil _ _)]
  rfl

/-- Names without underscores are words themselves, so that targets with such names have the same
words only if they are the same. -/
theorem words_eq_iff_of_unbroken (ht : t.Unbroken) (hu : u.Unbroken) :
    t.words = u.words ↔ u.Covered t.index := by
  have hwords : ∀ v : Target, v.Unbroken →
      v.words = (v.table :: v.columns).map fun name => name.toList.map Char.toLower := by
    intro v hv
    rw [words, List.map_eq_flatMap]
    exact List.flatMap_congr fun name hname => wordsOf_of_unbroken (hv name hname)
  rw [hwords t ht, hwords u hu, ← List.forall₂_eq_eq_eq, List.forall₂_map_left_iff,
    List.forall₂_map_right_iff, List.forall₂_cons]
  simp only [← sameName_iff]
  exact ⟨fun h => ⟨h.1, h.2⟩, fun h => ⟨h.table, h.columns⟩⟩

/-! ## Creating an index -/

/-- The database with the index of a target, unless there is one of its name. -/
def added (t : Target) (db : Database) : Database :=
  if (db.index? t.name).isSome then db else { db with indexes := db.indexes ++ [t.index] }

theorem tables_added (t : Target) (db : Database) : (t.added db).tables = db.tables := by
  unfold added
  split <;> rfl

theorem table?_added (t : Target) (db : Database) (name : String) :
    (t.added db).table? name = db.table? name := by
  rw [Database.table?, tables_added, Database.table?]

theorem Fits.added (h : t.Fits db) (u : Target) : t.Fits (u.added db) := by
  obtain ⟨table, ht, hall⟩ := h.columns
  exact ⟨h.nonempty, ⟨table, (table?_added u db _).trans ht, hall⟩, h.unreserved⟩

/-- The index of a name is the one that was there, else the new one if it has the name. -/
theorem index?_added (t : Target) (db : Database) (name : String) :
    (t.added db).index? name =
      (db.index? name).or (if sameName t.name name then some t.index else none) := by
  unfold added
  split
  next h =>
    split
    next hname =>
      rw [Database.index?_congr hname] at h
      obtain ⟨i, hi⟩ := Option.isSome_iff_exists.1 h
      rw [hi, Option.some_or]
    next => rw [Option.or_none]
  next =>
    rw [Database.index?, List.find?_append, List.find?_singleton]
    rfl

theorem perform_statement (h : t.Fits db) (hn : db.table? t.name = none) :
    t.statement.perform db = .ok (t.added db, none) := by
  obtain ⟨table, ht, hall⟩ := h.columns
  obtain ⟨after, ha⟩ : ∃ after, db.addIndex t.index = .ok after :=
    Database.addIndex_eq_ok h.nonempty ht hn hall
  have hadded : after = t.added db := by
    obtain ⟨-, -, -, ⟨hi, rfl⟩ | ⟨hi, rfl⟩⟩ := Database.addIndex_cases ha
    · exact (if_pos hi).symm
    · exact (if_neg (Option.not_isSome_iff_eq_none.2 hi)).symm
  rw [hadded] at ha
  exact Statement.perform_execute rfl (Database.perform_createIndex ha)

/-- No index can have the name of a table. -/
theorem table?_name_of_perform {result : Option (List Row)}
    (h : t.statement.perform db = .ok (after, result)) : db.table? t.name = none := by
  obtain ⟨-, records, hc⟩ := Statement.of_perform_execute rfl h
  obtain ⟨_, ha, -⟩ := bind_eq_ok.1 hc
  exact (Database.addIndex_cases ha).2.2.1

/-! ## Creating indexes one after the other -/

def addedAll (ts : List Target) (db : Database) : Database :=
  ts.foldl (fun db t => t.added db) db

theorem performAll_statements (hfits : ∀ t ∈ ts, t.Fits db)
    (hnone : ∀ t ∈ ts, db.table? t.name = none) (rows : List Row) :
    db.performAll rows (ts.map statement) = .ok (addedAll ts db, rows) := by
  induction ts generalizing db with
  | nil => rfl
  | cons t ts ih =>
    obtain ⟨ht, hts⟩ := List.forall_mem_cons.1 hfits
    obtain ⟨hn, hns⟩ := List.forall_mem_cons.1 hnone
    refine (Database.performAll_cons (perform_statement ht hn) rows _).trans ?_
    exact ih (fun u hu => (hts u hu).added t) fun u hu => (table?_added t db _).trans (hns u hu)

/-- They are created together, if none of them has the name of a table. -/
theorem transact_statements (hfits : ∀ t ∈ ts, t.Fits db)
    (hnone : ∀ t ∈ ts, db.table? t.name = none) :
    db.transact (ts.map statement) = (.ok [], addedAll ts db) := by
  rw [Database.transact_eq, performAll_statements hfits hnone]

theorem table?_name_of_performAll (hfits : ∀ t ∈ ts, t.Fits db) {rows rows' : List Row}
    (h : db.performAll rows (ts.map statement) = .ok (after, rows')) :
    ∀ t ∈ ts, db.table? t.name = none := by
  induction ts generalizing db rows with
  | nil => simp
  | cons t ts ih =>
    obtain ⟨ht, hts⟩ := List.forall_mem_cons.1 hfits
    obtain ⟨⟨mid, result⟩, hm, hp⟩ := bind_eq_ok.1 h
    have hn := table?_name_of_perform hm
    cases (perform_statement ht hn).symm.trans hm
    refine List.forall_mem_cons.2 ⟨hn, fun u hu => ?_⟩
    exact (table?_added t db _).symm.trans (ih (fun u hu => (hts u hu).added t) hp u hu)

theorem table?_name_of_transact (hfits : ∀ t ∈ ts, t.Fits db) {rows : List Row}
    (h : (db.transact (ts.map statement)).1 = .ok rows) : ∀ t ∈ ts, db.table? t.name = none := by
  rw [Database.transact_eq] at h
  split at h
  next hp => exact table?_name_of_performAll hfits hp
  next => cases h

/-- The index of a name is the one that was there, else that of the first target of the name. -/
theorem index?_addedAll (ts : List Target) (db : Database) (name : String) :
    (addedAll ts db).index? name =
      (db.index? name).or ((ts.find? fun t => sameName t.name name).map index) := by
  induction ts generalizing db with
  | nil => exact Option.or_none.symm
  | cons t ts ih =>
    refine (ih (t.added db)).trans ?_
    rw [index?_added, Option.or_assoc, List.find?_cons]
    cases sameName t.name name <;> rfl

/-! ## Two indexes -/

theorem covered_index (t : Target) : t.Covered t.index :=
  ⟨sameName_refl _, List.forall₂_same.2 fun c _ => sameName_refl c⟩

/-- An index that is there already is left there, and is over the same columns. -/
theorem Vacant.exists_index (h : t.Vacant db) :
    ∃ i, (db.index? t.name).or (some t.index) = some i ∧ sameName i.name t.name = true ∧
      t.Covered i := by
  cases hi : db.index? t.name with
  | none => exact ⟨t.index, rfl, sameName_refl _, t.covered_index⟩
  | some i => exact ⟨i, rfl, by simpa using List.find?_some hi, h.noOther i hi⟩

/-- Where the names differ and have not been taken, both indexes are there afterwards. -/
theorem apart_addedAll (ht : t.Vacant db) (hu : u.Vacant db)
    (hn : sameName t.name u.name = false) : Apart t u (addedAll [t, u] db) := by
  obtain ⟨i, hi, hti, hcovered⟩ := ht.exists_index
  obtain ⟨j, hj, huj, hcovered'⟩ := hu.exists_index
  refine ⟨i, j, ?_, ?_, hcovered, hcovered', ?_⟩
  · rw [index?_addedAll, ← hi]
    simp
  · rw [index?_addedAll, ← hj]
    simp [hn]
  · rintro rfl
    rw [← sameName_congr hti, huj] at hn
    cases hn

/-- Two indexes of their own have different names, and no other index has either. -/
theorem Apart.of_addedAll (h : Apart t u (addedAll [t, u] db)) :
    sameName t.name u.name = false ∧ (∀ i, db.index? t.name = some i → t.Covered i) ∧
      ∀ j, db.index? u.name = some j → u.Covered j := by
  obtain ⟨i, j, hi, hj, hcovered, hcovered', hne⟩ := h
  refine ⟨Bool.eq_false_iff.2 fun hname => hne ?_, fun i' hi' => ?_, fun j' hj' => ?_⟩
  · rw [Database.index?_congr hname, hj] at hi
    exact (Option.some.inj hi).symm
  · rw [index?_addedAll, hi', Option.some_or] at hi
    exact Option.some.inj hi ▸ hcovered
  · rw [index?_addedAll, hj', Option.some_or] at hj
    exact Option.some.inj hj ▸ hcovered'

/-- A target with the words of one before it is passed over. -/
theorem transact_of_words_eq (ht : t.Fits db) (hu : u.Fits db) (hwords : t.words = u.words) :
    db.transact [t.statement, u.statement] = db.transact [t.statement] := by
  have hname : sameName t.name u.name = true :=
    (sameName_name_iff ht.nonempty hu.nonempty).2 hwords
  cases hp : t.statement.perform db with
  | error refusal =>
    simp only [Database.transact_eq, Database.performAll_cons_error hp]
  | ok done =>
    obtain ⟨after, result⟩ := done
    have hn := table?_name_of_perform hp
    cases (perform_statement ht hn).symm.trans hp
    have hu' : u.statement.perform (t.added db) = .ok (u.added (t.added db), none) :=
      perform_statement (hu.added t) ((table?_added t db _).trans
        (Database.table?_congr hname ▸ hn))
    have hthere : ((t.added db).index? u.name).isSome = true := by
      rw [index?_added, if_pos hname, Option.isSome_or, Option.isSome_some, Bool.or_true]
    have hadded : u.added (t.added db) = t.added db := if_pos hthere
    rw [hadded] at hu'
    rw [Database.transact_singleton hp, Database.transact_eq, Database.performAll_cons hp,
      Database.performAll_cons hu']
    rfl

/-- The indexes that are wanted for two targets both come about if and only if the words of all
names are not the same and neither name has been taken. Where the words are the same the second
index is passed over, and without underscores they are the same for no two different targets. -/
theorem indexed_apart_iff (ht : t.Fits db) (hu : u.Fits db) :
    ((∃ rows, (db.transact [t.statement, u.statement]).1 = .ok rows) ∧
        Apart t u (db.transact [t.statement, u.statement]).2 ↔
      t.words ≠ u.words ∧ t.Vacant db ∧ u.Vacant db) ∧
    (t.words = u.words →
      db.transact [t.statement, u.statement] = db.transact [t.statement]) ∧
    (t.Unbroken → u.Unbroken → (t.words = u.words ↔ u.Covered t.index)) := by
  have hfits : ∀ v ∈ [t, u], v.Fits db := by simp [ht, hu]
  have hnames : sameName t.name u.name = false ↔ t.words ≠ u.words := by
    rw [← Bool.not_eq_true, sameName_name_iff ht.nonempty hu.nonempty]
  refine ⟨⟨?_, ?_⟩, transact_of_words_eq ht hu, words_eq_iff_of_unbroken⟩
  · rintro ⟨⟨rows, hok⟩, hapart⟩
    have hnone : ∀ v ∈ [t, u], db.table? v.name = none := table?_name_of_transact hfits hok
    have hrun : db.transact [t.statement, u.statement] = (.ok [], addedAll [t, u] db) :=
      transact_statements hfits hnone
    rw [hrun] at hapart
    obtain ⟨hn, hother, hother'⟩ := hapart.of_addedAll
    exact ⟨hnames.1 hn, ⟨hnone t (by simp), hother⟩, ⟨hnone u (by simp), hother'⟩⟩
  · rintro ⟨hwords, hvt, hvu⟩
    have hrun : db.transact [t.statement, u.statement] = (.ok [], addedAll [t, u] db) :=
      transact_statements hfits (by simp [hvt.noTable, hvu.noTable])
    rw [hrun]
    exact ⟨⟨_, rfl⟩, apart_addedAll hvt hvu (hnames.2 hwords)⟩

/-! ### Two tables -/

/-- A table without rows that has columns of these names. -/
def emptyTable (name : String) (columns : List String) : Table :=
  ⟨⟨name, none, columns.map fun c => ⟨c, .integer, .required⟩⟩, []⟩

theorem hasColumn_emptyTable {name c : String} {columns : List String} (h : c ∈ columns) :
    (emptyTable name columns).layout.hasColumn c = true := by
  refine Bool.or_eq_true_iff.2 (.inl ?_)
  rw [Layout.position?, List.findIdx?_isSome, List.any_eq_true]
  exact ⟨_, List.mem_map_of_mem h, sameName_refl c⟩

/-- The name of one table begins that of the other one. -/
def twoTables : Database :=
  ⟨[emptyTable "ad_history" ["created_at"],
    emptyTable "ad" ["created_at", "history_created_at"]], []⟩

theorem table?_history :
    twoTables.table? "ad_history" = some (emptyTable "ad_history" ["created_at"]) :=
  List.find?_cons_of_pos (sameName_refl _)

theorem table?_ad :
    twoTables.table? "ad" = some (emptyTable "ad" ["created_at", "history_created_at"]) := by
  have hother : sameName "ad_history" "ad" = false := by
    rw [← Bool.not_eq_true, sameName_iff]
    decide
  simp only [Database.table?, twoTables, emptyTable, List.find?_cons, hother, sameName_refl]

theorem vacant_twoTables (h : ∀ name ∈ ["ad_history", "ad"], name.length ≠ t.name.length) :
    t.Vacant twoTables := by
  refine ⟨List.find?_eq_none.2 fun table hmem => ?_, fun i hi => by cases hi⟩
  have hname : table.layout.name ∈ ["ad_history", "ad"] :=
    List.mem_map_of_mem (f := fun table : Table => table.layout.name) hmem
  rw [sameName_eq_false_of_length (h _ hname)]
  exact Bool.false_ne_true

theorem fits_twoTables :
    (Target.mk "ad_history" ["created_at"]).Fits twoTables ∧
      (Target.mk "ad" ["history_created_at"]).Fits twoTables ∧
      (Target.mk "ad" ["created_at", "history_created_at"]).Fits twoTables := by
  refine ⟨⟨List.cons_ne_nil _ _, ⟨_, table?_history, fun c hc => hasColumn_emptyTable hc⟩, ?_⟩,
    ⟨List.cons_ne_nil _ _, ⟨_, table?_ad, fun c hc => hasColumn_emptyTable ?_⟩, ?_⟩,
    ⟨List.cons_ne_nil _ _, ⟨_, table?_ad, fun c hc => hasColumn_emptyTable hc⟩, ?_⟩⟩
  · decide
  · exact List.mem_cons_of_mem _ hc
  · decide
  · decide

theorem columns_of_history_and_ad_apart :
    let t : Target := ⟨"ad_history", ["created_at"]⟩
    let u : Target := ⟨"ad", ["created_at", "history_created_at"]⟩
    t.Fits twoTables ∧ u.Fits twoTables ∧
      (∃ rows, (twoTables.transact [t.statement, u.statement]).1 = .ok rows) ∧
      Apart t u (twoTables.transact [t.statement, u.statement]).2 := by
  intro t u
  obtain ⟨ht, -, hu⟩ := fits_twoTables
  exact ⟨ht, hu, (indexed_apart_iff ht hu).1.2
    ⟨by decide, vacant_twoTables (by decide), vacant_twoTables (by decide)⟩⟩

/-- The words of these are the same, so that the second table has no index afterwards. -/
theorem column_of_ad_passed_over :
    let t : Target := ⟨"ad_history", ["created_at"]⟩
    let u : Target := ⟨"ad", ["history_created_at"]⟩
    t ≠ u ∧ t.Fits twoTables ∧ u.Fits twoTables ∧
      ∃ after, twoTables.transact [t.statement, u.statement] = (.ok [], after) ∧
        after.indexes = [t.index] ∧ ¬ Apart t u after := by
  intro t u
  obtain ⟨ht, hu, -⟩ := fits_twoTables
  have hwords : t.words = u.words := by decide
  have hvacant : t.Vacant twoTables := vacant_twoTables (by decide)
  have hrun : twoTables.transact [t.statement] = (.ok [], t.added twoTables) :=
    Database.transact_singleton (perform_statement ht hvacant.noTable)
  refine ⟨by simp [t, u], ht, hu, _, (transact_of_words_eq ht hu hwords).trans hrun, rfl, ?_⟩
  rintro ⟨i, j, hi, hj, -, -, hne⟩
  rw [Database.index?_congr ((sameName_name_iff ht.nonempty hu.nonempty).2 hwords), hj] at hi
  exact hne (Option.some.inj hi).symm

end Target
end AdLedger.Store
