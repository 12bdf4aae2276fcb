import AdLedger.Proofs.Sql.Reading
import AdLedger.Store.Ledger
import AdLedger.Store.Migration

/-!
# The commands of the ledger

All statements that the ledger itself gives an engine (`Given`) are plain, so that their written
forms are read as the commands that they are (`read?_text_of_given`).
-/

namespace AdLedger.Store

open Sql
open Time (Instant)

theorem isName_tableName : IsName tableName := by decide

theorem isName_columnNames : ∀ n ∈ columnNames, IsName n := by decide

theorem isName_time : IsName "created_at" := isName_columnNames _ (by decide)

theorem isName_versionTable : ∀ n ∈ [versionTableName, "version", "applied_at"], IsName n := by
  decide

/-- The statements of the ledger: about versions, about its table, and those by which items are
kept, found and forgotten. -/
inductive Given : Statement → Prop where
  | version {s : Statement} (h : s ∈ askVersion) : Given s
  | record (now : Instant) (version : Nat) : Given (recordVersion now version)
  | hook {s : Statement} {step : Step} (h : s ∈ ledgerHooks.statements step) : Given s
  | insert {s : Statement} {batchSize : Nat} {items : List Item} (h : s ∈ inserts batchSize items) :
    Given s
  | inRange (values : List Scalar) :
    Given (.step (.select columnNames tableName inRange newestFirst) values columnTypes)
  | best (values : List Scalar) :
    Given (.step (.best columnNames tableName inRange placementRanking newestFirst) values
      columnTypes)
  | creative (values : List Scalar) :
    Given (.step (.select columnNames tableName (.equals "creative_instance_id" .parameter)
      .insertion) values columnTypes)
  | forget (cutoff : Instant) : Given (forgetUpTo cutoff)

theorem plain_askVersion {s : Statement} (h : s ∈ askVersion) : s.command.Plain := by
  obtain rfl | h := List.mem_cons.1 h
  · exact ⟨nofun, isName_versionTable, nofun⟩
  · cases List.mem_singleton.1 h
    exact ⟨nofun, show ∀ n ∈ ["version", versionTableName], IsName n by decide, nofun⟩

theorem plain_recordVersion (now : Instant) (version : Nat) :
    (recordVersion now version).command.Plain :=
  ⟨nofun, isName_versionTable, fun _ ht => List.eq_of_mem_replicate (n := 2) ht⟩

theorem plain_createTable : createTable.command.Plain :=
  ⟨nofun, show ∀ n ∈ layout.names, IsName n by decide, nofun⟩

theorem plain_createColumnIndex {column : String}
    (h : column ∈ ["created_at", "confirmation_type", "placement_id", "creative_instance_id"]) :
    (createColumnIndex column).command.Plain := by
  have hnames : ∀ column ∈
      ["created_at", "confirmation_type", "placement_id", "creative_instance_id"],
      ∀ n ∈ [indexName tableName [column], tableName, column], IsName n := by
    decide
  exact ⟨nofun, hnames column h, nofun⟩

theorem plain_hook {s : Statement} {step : Step} (h : s ∈ ledgerHooks.statements step) :
    s.command.Plain := by
  cases step with
  | create =>
    obtain rfl | h := List.mem_cons.1 h
    · exact plain_createTable
    · obtain ⟨column, hcolumn, rfl⟩ := List.mem_map.1 h
      exact plain_createColumnIndex hcolumn
  | migrate version =>
    match version with
    | 1 =>
      obtain rfl | h := List.mem_cons.1 h
      · exact plain_createTable
      · obtain ⟨column, hcolumn, rfl⟩ := List.mem_map.1 h
        exact plain_createColumnIndex (List.mem_of_mem_take (i := 3) hcolumn)
    | 2 =>
      cases List.mem_singleton.1 h
      exact plain_createColumnIndex (by decide)
    | 0 | _ + 3 => cases h

theorem plain_insertRows (rows : Nat) : (insertRows rows).Plain where
  understood _ := nofun
  names := List.forall_mem_cons.2 ⟨isName_tableName, isName_columnNames⟩
  terms t h := by
    obtain ⟨row, hrow, ht⟩ := List.mem_flatten.1 h
    exact List.eq_of_mem_replicate (List.eq_of_mem_replicate hrow ▸ ht)

theorem plain_of_mem_inserts {batchSize : Nat} {items : List Item} {s : Statement}
    (h : s ∈ inserts batchSize items) : s.command.Plain := by
  obtain ⟨batch, -, hs⟩ := List.mem_filterMap.1 h
  unfold insertBatch at hs
  dsimp only at hs
  split at hs
  · cases hs
  · cases hs
    exact plain_insertRows _

theorem plain_forgetUpTo (cutoff : Instant) : (forgetUpTo cutoff).command.Plain where
  understood _ := nofun
  names := List.forall_mem_cons.2 ⟨isName_tableName, List.forall_mem_singleton.2 isName_time⟩
  terms _ h := List.mem_singleton.1 h

theorem plain_select {condition : Condition Term} {order : Order}
    (hn : ∀ n ∈ condition.names, IsName n) (ho : ∀ n ∈ order.names, IsName n)
    (ht : ∀ t ∈ condition.terms, t = .parameter) :
    (Command.select columnNames tableName condition order).Plain where
  understood _ := nofun
  names := List.forall_mem_cons.2 ⟨isName_tableName, List.forall_mem_append.2
    ⟨List.forall_mem_append.2 ⟨isName_columnNames, hn⟩, ho⟩⟩
  terms := ht

theorem plain_of_given {s : Statement} (h : Given s) : s.command.Plain := by
  cases h with
  | version h => exact plain_askVersion h
  | record now version => exact plain_recordVersion now version
  | hook h => exact plain_hook h
  | insert h => exact plain_of_mem_inserts h
  | inRange values =>
    exact plain_select (List.forall_mem_singleton.2 isName_time)
      (List.forall_mem_singleton.2 isName_time) fun _ ht => List.eq_of_mem_replicate (n := 2) ht
  | best values =>
    have hranking : ∀ n ∈ placementRanking.names, IsName n := by decide
    refine ⟨nofun, ?_, fun _ ht => List.eq_of_mem_replicate (n := 2) ht⟩
    refine List.forall_mem_cons.2 ⟨isName_tableName, List.forall_mem_append.2 ⟨?_, ?_⟩⟩
    · exact List.forall_mem_append.2 ⟨List.forall_mem_append.2 ⟨isName_columnNames,
        List.forall_mem_singleton.2 isName_time⟩, hranking⟩
    · exact List.forall_mem_singleton.2 isName_time
  | creative values =>
    exact plain_select (List.forall_mem_singleton.2 (isName_columnNames _ (by decide))) nofun
      fun _ ht => List.mem_singleton.1 ht
  | forget cutoff => exact plain_forgetUpTo cutoff

/-- What is written of a statement of the ledger is read as its command. -/
theorem read?_text_of_given {s : Statement} (h : Given s) :
    Command.read? s.command.text = some s.command :=
  Command.read?_text (plain_of_given h)

end AdLedger.Store
