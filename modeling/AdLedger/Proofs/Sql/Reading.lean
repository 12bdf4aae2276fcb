import AdLedger.Proofs.Sql.Grammar

/-!
# Reading written commands

The written form of a plain command is read as that command (`Command.read?_text`), so no two plain
commands are written alike.
-/

namespace AdLedger.Sql

namespace Reader

variable {rest : List Char}

theorem kind_append (reader : Reader (Command Term)) {lead : String} {c : Command Term}
    {tail : List Char} (hmem : (lead, reader) ∈ kinds) (hc : closes lead.toList = true)
    (h : reader (tokens tail) = some (c, tokens (";".toList ++ rest))) :
    command (tokens (lead.toList ++ tail)) = some (c, tokens rest) := by
  have hkind := choice_append differ_kinds hmem hc tail
  rw [command, bind_eq (hkind.trans h), bind_eq (phrase_append (.inl rfl))]
  rfl

theorem createTable_append {l : Layout} (h : ∀ n ∈ l.names, IsName n) :
    command (tokens ((Command.createTable l).text.toList ++ rest)) =
      some (.createTable l, tokens rest) := by
  have htext : (Command.createTable l).text =
      "\nCREATE TABLE IF NOT EXISTS " ++ l.text ++ ";" := rfl
  have hlead : "\nCREATE TABLE IF NOT EXISTS ".toList =
      "\n".toList ++ ("CREATE TABLE ".toList ++ "IF NOT EXISTS ".toList) := by simp
  simp only [htext, hlead, String.toList_append, List.append_assoc]
  rw [tokens_append (s := "\n".toList) (.inl rfl)]
  refine kind_append table (by simp [kinds]) rfl ?_
  rw [table, bind_eq (flag_append (.inl rfl)), if_pos rfl, bind_eq (layout_append h)]
  rfl

theorem createNewTable_append {l : Layout} (h : ∀ n ∈ l.names, IsName n) :
    command (tokens ((Command.createNewTable l).text.toList ++ rest)) =
      some (.createNewTable l, tokens rest) := by
  have htext : (Command.createNewTable l).text = "\nCREATE TABLE " ++ l.text ++ ";" := rfl
  have hlead : "\nCREATE TABLE ".toList = "\n".toList ++ "CREATE TABLE ".toList := by simp
  simp only [htext, hlead, String.toList_append, List.append_assoc]
  rw [tokens_append (s := "\n".toList) (.inl rfl)]
  refine kind_append table (by simp [kinds]) rfl ?_
  -- A table is not named like the word that a condition begins with.
  have hflag : flag "IF NOT EXISTS " (tokens (l.text.toList ++ (";".toList ++ rest))) =
      some (false, tokens (l.text.toList ++ (";".toList ++ rest))) := by
    have hname := h l.name List.mem_cons_self
    have hif : "IF".toList ≠ l.name.toList := by
      intro heq
      refine hname.notKeyword ?_
      rw [← heq]
      decide
    simp only [Layout.text, String.toList_append, List.append_assoc]
    exact flag_name hname (by decide) hif rfl
  rw [table, bind_eq hflag, if_neg Bool.false_ne_true, bind_eq (layout_append h)]
  rfl

theorem createIndex_append {n t : String} {columns : List String}
    (h : ∀ m ∈ n :: t :: columns, IsName m) :
    command (tokens ((Command.createIndex n t columns).text.toList ++ rest)) =
      some (.createIndex n t columns, tokens rest) := by
  have htext : (Command.createIndex n t columns).text =
      "CREATE INDEX IF NOT EXISTS " ++ n ++ " ON " ++ t ++ "(" ++ commas columns ++ ");" := rfl
  have hend : ");".toList = ")".toList ++ ";".toList := by simp
  obtain ⟨hn, ht, h⟩ := List.forall_mem_cons.1 h |>.imp id List.forall_mem_cons.1
  simp only [htext, hend, String.toList_append, List.append_assoc]
  refine kind_append index (by simp [kinds]) rfl ?_
  rw [index, bind_eq (name_append hn rfl), bind_eq (phrase_append (.inl rfl)),
    bind_eq (name_append ht rfl), bind_eq (phrase_append (.inl rfl)),
    bind_eq (names_append h (by decide) (by decide) rfl rfl), bind_eq (phrase_append (.inl rfl))]
  rfl

theorem drop_append {n : String} (h : IsName n) :
    command (tokens ((Command.dropTable n).text.toList ++ rest)) =
        some (.dropTable n, tokens rest) ∧
      command (tokens ((Command.dropIndex n).text.toList ++ rest)) =
        some (.dropIndex n, tokens rest) := by
  have htable : (Command.dropTable n).text = "DROP TABLE " ++ n ++ ";" := rfl
  have hindex : (Command.dropIndex n).text = "DROP INDEX " ++ n ++ ";" := rfl
  simp only [htable, hindex, String.toList_append, List.append_assoc]
  exact ⟨kind_append (do return .dropTable (← name)) (by simp [kinds]) rfl
      (bind_eq (name_append h rfl)),
    kind_append (do return .dropIndex (← name)) (by simp [kinds]) rfl
      (bind_eq (name_append h rfl))⟩

theorem insertion_append
    {make : String → List String → List (List Term) → Command Term} {t : String}
    {columns : List String} {rows : List (List Term)} (h : ∀ n ∈ t :: columns, IsName n)
    (hrows : ∀ v ∈ rows.flatten, v = .parameter) :
    insertion make (tokens (t.toList ++ (" (".toList ++ ((commas columns).toList ++
      (") VALUES ".toList ++ ((tuples rows).toList ++ (";".toList ++ rest))))))) =
        some (make t columns rows, tokens (";".toList ++ rest)) := by
  obtain ⟨ht, h⟩ := List.forall_mem_cons.1 h
  have hrows : ∀ row ∈ rows, ∀ v ∈ row, v = .parameter :=
    fun row hrow v hv => hrows v (List.mem_flatten_of_mem hrow hv)
  rw [insertion, bind_eq (name_append ht rfl), bind_eq (phrase_append (.inl rfl)),
    bind_eq (names_append h (by decide) (by decide) rfl rfl), bind_eq (phrase_append (.inl rfl)),
    bind_eq (rows_append hrows)]
  rfl

theorem insert_append {t : String} {columns : List String} {rows : List (List Term)}
    (h : ∀ n ∈ t :: columns, IsName n) (hrows : ∀ v ∈ rows.flatten, v = .parameter) :
    command (tokens ((Command.insert t columns rows).text.toList ++ rest)) =
        some (.insert t columns rows, tokens rest) ∧
      command (tokens ((Command.insertOrIgnore t columns rows).text.toList ++ rest)) =
        some (.insertOrIgnore t columns rows, tokens rest) := by
  have hinsert : (Command.insert t columns rows).text =
      "INSERT INTO " ++ t ++ " (" ++ commas columns ++ ") VALUES " ++ tuples rows ++ ";" := rfl
  have hignore : (Command.insertOrIgnore t columns rows).text =
      "INSERT OR IGNORE INTO " ++ t ++ " (" ++ commas columns ++ ") VALUES " ++ tuples rows ++
        ";" := rfl
  simp only [hinsert, hignore, String.toList_append, List.append_assoc]
  exact ⟨kind_append (insertion .insert) (by simp [kinds]) rfl (insertion_append h hrows),
    kind_append (insertion .insertOrIgnore) (by simp [kinds]) rfl
      (insertion_append h hrows)⟩

theorem delete_append {t : String} {condition : Condition Term} (ht : IsName t)
    (hn : ∀ n ∈ condition.names, IsName n) (hv : ∀ v ∈ condition.terms, v = .parameter) :
    command (tokens ((Command.delete t condition).text.toList ++ rest)) =
      some (.delete t condition, tokens rest) := by
  have htext : (Command.delete t condition).text =
      "DELETE FROM " ++ t ++ condition.text ++ ";" := rfl
  simp only [htext, String.toList_append, List.append_assoc]
  refine kind_append deletion (by simp [kinds]) rfl ?_
  rw [deletion, bind_eq (name_append ht (opens_conditionText _ rfl)),
    bind_eq (condition_append hn hv rfl (flag_other (t := ";") (by decide) (.inl rfl)))]
  rfl

theorem greatest_append {n t : String} (hn : IsName n) (ht : IsName t) :
    command (tokens ((Command.greatest n t).text.toList ++ rest)) =
      some (.greatest n t, tokens rest) := by
  have htext : (Command.greatest n t).text = "SELECT MAX(" ++ n ++ ") FROM " ++ t ++ ";" := rfl
  have hlead : "SELECT MAX(".toList = "SELECT ".toList ++ "MAX(".toList := by simp
  simp only [htext, hlead, String.toList_append, List.append_assoc]
  refine kind_append selection (by simp [kinds]) rfl ?_
  rw [selection, bind_eq (flag_append (.inl rfl)), if_pos rfl, bind_eq (name_append hn rfl),
    bind_eq (phrase_append (.inl rfl)), bind_eq (name_append ht rfl)]
  rfl

/-- Columns are not taken for a column whose greatest value is asked for. -/
theorem flag_max {columns : List String} (h : ∀ n ∈ columns, IsName n) :
    flag "MAX(" (tokens ((commas columns).toList ++ (" FROM ".toList ++ rest))) =
      some (false, tokens ((commas columns).toList ++ (" FROM ".toList ++ rest))) := by
  cases columns with
  | nil => exact flag_other (t := " FROM ") (by decide) (.inl rfl)
  | cons n columns =>
    obtain ⟨hn, -⟩ := List.forall_mem_cons.1 h
    -- After a name there is a comma or the next word, and no bracket.
    obtain ⟨t, tail, ht, hc, ho, htail⟩ : ∃ (t : String) (tail : List Char),
        differ (tokens "(".toList) (tokens t.toList) = true ∧ closes t.toList = true ∧
          opens (t.toList ++ tail) = true ∧
          (commas (n :: columns)).toList ++ (" FROM ".toList ++ rest) =
            n.toList ++ (t.toList ++ tail) := by
      rw [commas, intercalate_cons, String.toList_append, List.append_assoc]
      cases columns with
      | nil => exact ⟨" FROM ", rest, by decide, rfl, rfl, by simp⟩
      | cons m columns =>
        refine ⟨", ", m.toList ++ ((String.join (columns.map (", " ++ ·))).toList ++
          (" FROM ".toList ++ rest)), by decide, rfl, rfl, ?_⟩
        rw [List.map_cons, String.join_cons]
        simp only [String.toList_append, List.append_assoc]
    have hmax : tokens "MAX(".toList = "MAX".toList :: tokens "(".toList := by decide
    rw [htail, flag, hmax, if_neg]
    intro hp
    rw [tokens_append (.inr ho), hn.tokens_eq, tokens_append (.inl hc)] at hp
    exact not_prefix_of_differ ht (List.cons_prefix_cons.1 hp).2

theorem select_append {columns : List String} {t : String} {condition : Condition Term}
    {order : Order} (hcolumns : ∀ n ∈ columns, IsName n) (ht : IsName t)
    (hn : ∀ n ∈ condition.names, IsName n) (ho : ∀ n ∈ order.names, IsName n)
    (hv : ∀ v ∈ condition.terms, v = .parameter) :
    command (tokens ((Command.select columns t condition order).text.toList ++ rest)) =
      some (.select columns t condition order, tokens rest) := by
  have htext : (Command.select columns t condition order).text =
      "SELECT " ++ commas columns ++ " FROM " ++ t ++ condition.text ++ order.text ++ ";" := rfl
  simp only [htext, orderText_id, String.toList_append, List.append_assoc]
  refine kind_append selection (by simp [kinds]) rfl ?_
  rw [selection, bind_eq (flag_max hcolumns), if_neg Bool.false_ne_true,
    bind_eq (names_append hcolumns (by decide) (by decide) rfl rfl),
    bind_eq (phrase_append (.inl rfl)),
    bind_eq (name_append ht (opens_conditionText _ (opens_orderText id _))),
    bind_eq (condition_append hn hv (opens_orderText id _) (flag_where_orderText id _)),
    bind_eq (order_append id fun n hn => reads_name (ho n hn))]
  rfl

/-- The columns that are read in a query for the best end before the rank that is computed. -/
theorem columns_append {columns : List String} (h : ∀ n ∈ columns, IsName n) :
    listed name (tokens ((commas columns).toList ++ (", ".toList ++ ("CASE ".toList ++ rest)))) =
      some (columns, tokens (", ".toList ++ ("CASE ".toList ++ rest))) :=
  listed_names h rfl (name_other (by decide) (.inl rfl)) (by
    rw [bind_eq (phrase_comma rfl rfl _)]
    exact name_other (by decide) (.inl rfl))

theorem rankingText_eq (r : Ranking) :
    r.text = "CASE " ++ r.column ++ String.join (r.ranks.map armText) ++ " ELSE 0 END" := rfl

theorem bestText_eq (columns : List String) (t : String) (condition : Condition Term)
    (ranking : Ranking) (order : Order) :
    bestText columns t condition ranking order =
      "WITH " ++ ("ranked_" ++ t) ++ " AS (SELECT " ++ commas columns ++ ", " ++ "CASE " ++
        ranking.column ++ String.join (ranking.ranks.map armText) ++ " ELSE 0 END" ++
        " AS placement_rank " ++ "FROM " ++ t ++ condition.text ++ ") SELECT " ++ commas columns ++
        " FROM " ++ ("ranked_" ++ t) ++ " AS candidate " ++
        "WHERE candidate.placement_rank > 0 AND candidate.placement_rank = " ++
        "(SELECT MIN(placement_rank) FROM " ++ ("ranked_" ++ t) ++ " WHERE " ++ ranking.group ++
        " = candidate." ++ ranking.group ++ " AND placement_rank > 0)" ++
        orderText ("candidate" ++ "." ++ ·) order ++ ";" := by
  have hwith : "WITH ranked_" = "WITH " ++ "ranked_" := by simp
  have hfrom : " FROM ranked_" = " FROM " ++ "ranked_" := by simp
  have hmin : "(SELECT MIN(placement_rank) FROM ranked_" =
      "(SELECT MIN(placement_rank) FROM " ++ "ranked_" := by simp
  have hand : " AND placement_rank > 0)" = " " ++ "AND placement_rank > 0)" := by simp
  unfold bestText
  simp only [rankingText_eq, orderText_within, toString, hwith, hfrom, hmin, hand,
    String.append_assoc]

theorem reads_candidate {n : String} (h : IsName n) :
    Reads (do phrase "candidate."; name) ("candidate" ++ "." ++ n) n := by
  have hlead : "candidate" ++ "." = "candidate." := by simp
  rw [hlead]
  refine ⟨fun hr => ?_, ?_⟩
  · rw [String.toList_append, List.append_assoc, bind_eq (phrase_append (.inl rfl))]
    exact name_append h hr
  · rw [String.toList_append, tokens_append (.inl rfl)]
    exact nofun

theorem best_append {columns : List String} {t : String} {condition : Condition Term}
    {ranking : Ranking} {order : Order} (hcolumns : ∀ n ∈ columns, IsName n) (ht : IsName t)
    (hn : ∀ n ∈ condition.names, IsName n) (hr : ∀ n ∈ ranking.names, IsName n)
    (ho : ∀ n ∈ order.names, IsName n) (hv : ∀ v ∈ condition.terms, v = .parameter) :
    command (tokens ((Command.best columns t condition ranking order).text.toList ++ rest)) =
      some (.best columns t condition ranking order, tokens rest) := by
  obtain ⟨ranked, ranks, group⟩ := ranking
  obtain ⟨hranked, hr⟩ := List.forall_mem_cons.1 hr
  obtain ⟨hgroup, hr⟩ := List.forall_mem_cons.1 hr
  have hranks : ∀ p ∈ ranks, IsName p.1 := fun p hp => hr _ (List.mem_map_of_mem hp)
  have hview : ("ranked_" ++ t).toList.all isNameChar = true := by
    rw [String.toList_append, List.all_append, ht.chars]
    rfl
  have hne : ("ranked_" ++ t).toList ≠ [] := by simp
  have harms : ∀ tail, opens ((String.join (ranks.map armText)).toList ++
      (" ELSE 0 END".toList ++ tail)) = true := by
    refine fun tail => opens_join (List.forall_mem_map.2 fun p _ => ?_) rfl
    simp only [armText, String.toList_append, List.append_assoc]
    rfl
  have htext : (Command.best columns t condition ⟨ranked, ranks, group⟩ order).text = _ :=
    bestText_eq columns t condition ⟨ranked, ranks, group⟩ order
  rw [htext]
  generalize hview' : "ranked_" ++ t = view at hview hne ⊢
  simp only [String.toList_append, List.append_assoc]
  refine kind_append best (by simp [kinds]) rfl ?_
  rw [best, bind_eq (word_append hne hview rfl), bind_eq (phrase_append (.inl rfl)),
    bind_eq (columns_append hcolumns), bind_eq (phrase_append (.inl rfl)),
    bind_eq (phrase_append (.inl rfl)), bind_eq (name_append hranked (harms _)),
    bind_eq (arms_append hranks rfl), bind_eq (phrase_append (.inr rfl)),
    bind_eq (phrase_append (.inl rfl)), bind_eq (phrase_append (.inl rfl)),
    bind_eq (name_append ht (opens_conditionText _ rfl)),
    bind_eq (condition_append hn hv rfl (flag_other (t := ") SELECT ") (by decide) (.inl rfl))),
    bind_eq (phrase_append (.inl rfl)), bind_eq (phrase_append (.inr rfl)),
    bind_eq (phrase_append (.inl rfl)), hview', bind_eq (phrase_append (.inr rfl)),
    bind_eq (phrase_append (.inl rfl)), bind_eq (phrase_append (.inl rfl)),
    bind_eq (phrase_append (.inl rfl)), bind_eq (phrase_append (.inr rfl)),
    bind_eq (phrase_append (.inl rfl)), bind_eq (name_append hgroup rfl),
    bind_eq (phrase_append (.inl rfl)), bind_eq (phrase_append (.inr rfl)),
    bind_eq (phrase_append (.inl rfl)),
    bind_eq (order_append _ fun n hn => reads_candidate (ho n hn)), if_pos rfl]
  rfl

theorem plain_append {c : Command Term} (h : c.Plain) (rest : List Char) :
    command (tokens (c.text.toList ++ rest)) = some (c, tokens rest) := by
  have hnames := h.names
  have hterms := h.terms
  cases c with
  | createTable l => exact createTable_append hnames
  | createNewTable l => exact createNewTable_append hnames
  | createIndex n t columns => exact createIndex_append hnames
  | dropTable n => exact (drop_append (hnames n List.mem_cons_self)).1
  | dropIndex n => exact (drop_append (hnames n List.mem_cons_self)).2
  | insert t columns rows => exact (insert_append hnames hterms).1
  | insertOrIgnore t columns rows => exact (insert_append hnames hterms).2
  | delete t condition =>
    obtain ⟨ht, hnames⟩ := List.forall_mem_cons.1 hnames
    exact delete_append ht hnames hterms
  | select columns t condition order =>
    obtain ⟨ht, hnames⟩ := List.forall_mem_cons.1 hnames
    obtain ⟨hnames, ho⟩ := List.forall_mem_append.1 hnames
    obtain ⟨hcolumns, hn⟩ := List.forall_mem_append.1 hnames
    exact select_append hcolumns ht hn ho hterms
  | greatest n t =>
    obtain ⟨hn, hnames⟩ := List.forall_mem_cons.1 hnames
    exact greatest_append hn (List.forall_mem_singleton.1 hnames)
  | best columns t condition ranking order =>
    obtain ⟨ht, hnames⟩ := List.forall_mem_cons.1 hnames
    obtain ⟨hnames, ho⟩ := List.forall_mem_append.1 hnames
    obtain ⟨hnames, hr⟩ := List.forall_mem_append.1 hnames
    obtain ⟨hcolumns, hn⟩ := List.forall_mem_append.1 hnames
    exact best_append hcolumns ht hn hr ho hterms
  | other text => exact absurd rfl (h.understood text)

end Reader

/-- The command that a text is, if it is one with nothing after it. -/
def Command.read? (s : String) : Option (Command Term) :=
  match Reader.command (tokens s.toList) with
  | some (c, []) => some c
  | _ => none

/-- The written form of a plain command is read as that command. -/
theorem Command.read?_text {c : Command Term} (h : c.Plain) : Command.read? c.text = some c := by
  have hread := Reader.plain_append h []
  rw [List.append_nil] at hread
  rw [Command.read?, hread]
  rfl

theorem Command.text_injOn {c d : Command Term} (hc : c.Plain) (hd : d.Plain)
    (h : c.text = d.text) : c = d := by
  have hread := Command.read?_text hc
  rw [h, Command.read?_text hd] at hread
  exact (Option.some.inj hread).symm

end AdLedger.Sql