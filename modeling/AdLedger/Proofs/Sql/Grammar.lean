import AdLedger.Proofs.Sql.Tokens

/-!
# The grammar of commands

Readers for the commands of the ledger (`Reader.command`) and their parts. Each reader of a part
takes the written form of the part, and leaves what comes after it.
-/

namespace AdLedger.Sql.Reader

/-! ## Parts of commands -/

def term : Reader Term := do
  phrase "?"
  return .parameter

def tuple : Reader (List Term) := do
  phrase "("
  let row ← listed term
  phrase ")"
  return row

def affinity : Reader Affinity := do
  if ← flag " INTEGER" then
    return .integer
  else
    phrase " TEXT"
    return .text

def rule : Reader Rule := do
  if ← flag " NOT NULL" then
    return .required
  else
    phrase " PRIMARY KEY"
    return .key

def column : Reader Column := do
  let name ← name
  let affinity ← affinity
  return ⟨name, affinity, ← rule⟩

/-- The column by which a table numbers its rows, if it does. -/
def numbering : Reader (Option String) :=
  (do
    let n ← name
    phrase " INTEGER PRIMARY KEY AUTOINCREMENT NOT NULL"
    return some n) <|> pure none

/-- The columns of a table, after the one that numbers its rows if there is one. -/
def columnsAfter : Option String → Reader (List Column)
  | some _ => all (do phrase ","; column)
  | none => listed column

def layout : Reader Layout := do
  let table ← name
  phrase " (\n"
  let rowNumber ← numbering
  let columns ← columnsAfter rowNumber
  phrase "\n)"
  return ⟨table, rowNumber, columns⟩

def condition : Reader (Condition Term) := do
  if ← flag " WHERE " then
    let column ← name
    if ← flag " BETWEEN " then
      let low ← term
      phrase " AND "
      return .between column low (← term)
    else if ← flag " <= " then
      return .atMost column (← term)
    else
      phrase " = "
      return .equals column (← term)
  else
    return .always

/-- An order by a column that is named in a certain way. -/
def order (column : Reader String) : Reader Order := do
  if ← flag " ORDER BY " then
    let column ← column
    if ← flag " ASC" then
      return .ascending column
    else
      phrase " DESC"
      return .descending column
  else
    return .insertion

/-- A rank of a word. -/
def arm : Reader (String × Nat) := do
  phrase " WHEN "
  phrase "'"
  let word ← name
  phrase "'"
  phrase " THEN "
  return (word, ← number)

/-! ## Commands -/

def table : Reader (Command Term) := do
  if ← flag "IF NOT EXISTS " then
    return .createTable (← layout)
  else
    return .createNewTable (← layout)

def index : Reader (Command Term) := do
  let index ← name
  phrase " ON "
  let table ← name
  phrase "("
  let columns ← listed name
  phrase ")"
  return .createIndex index table columns

def insertion (make : String → List String → List (List Term) → Command Term) :
    Reader (Command Term) := do
  let table ← name
  phrase " ("
  let columns ← listed name
  phrase ") VALUES "
  return make table columns (← listed tuple)

def deletion : Reader (Command Term) := do
  let table ← name
  return .delete table (← condition)

def selection : Reader (Command Term) := do
  if ← flag "MAX(" then
    let column ← name
    phrase ") FROM "
    return .greatest column (← name)
  else
    let columns ← listed name
    phrase " FROM "
    let table ← name
    let condition ← condition
    return .select columns table condition (← order name)

def best : Reader (Command Term) := do
  let view ← word
  phrase " AS (SELECT "
  let columns ← listed name
  phrase ", "
  phrase "CASE "
  let ranked ← name
  let ranks ← all arm
  phrase " ELSE 0 END"
  phrase " AS placement_rank "
  phrase "FROM "
  let table ← name
  let condition ← condition
  phrase ") SELECT "
  phrase (commas columns)
  phrase " FROM "
  phrase ("ranked_" ++ table)
  phrase " AS candidate "
  phrase "WHERE candidate.placement_rank > 0 AND candidate.placement_rank = "
  phrase "(SELECT MIN(placement_rank) FROM "
  phrase ("ranked_" ++ table)
  phrase " WHERE "
  let group ← name
  phrase " = candidate."
  phrase group
  phrase " AND placement_rank > 0)"
  let order ← order (do phrase "candidate."; name)
  if view = "ranked_" ++ table then
    return .best columns table condition ⟨ranked, ranks, group⟩ order
  else
    failure

/-- The kinds of commands, by the words with which they begin. -/
def kinds : List (String × Reader (Command Term)) :=
  [("CREATE TABLE ", table), ("CREATE INDEX IF NOT EXISTS ", index),
    ("DROP TABLE ", do return .dropTable (← name)), ("DROP INDEX ", do return .dropIndex (← name)),
    ("INSERT INTO ", insertion .insert), ("INSERT OR IGNORE INTO ", insertion .insertOrIgnore),
    ("DELETE FROM ", deletion), ("SELECT ", selection), ("WITH ", best)]

def command : Reader (Command Term) := do
  let c ← choice kinds
  phrase ";"
  return c

theorem differ_kinds : (kinds.map Prod.fst).Pairwise fun s t =>
    differ (tokens s.toList) (tokens t.toList) = true := by
  simp only [kinds, List.map_cons, List.map_nil]
  decide

section Parts

variable {rest : List Char}

theorem reads_term : Reads term Term.parameter.text .parameter where
  takes _ := bind_eq (phrase_append (s := "?") (.inl rfl))
  nonempty := by decide

theorem listed_names {names : List String} (h : ∀ n ∈ names, IsName n) (hr : opens rest = true)
    (hend : name (tokens rest) = none) (hmore : (do phrase ","; name) (tokens rest) = none) :
    listed name (tokens ((commas names).toList ++ rest)) = some (names, tokens rest) := by
  have hlisted : listed name (tokens ((", ".intercalate (names.map id)).toList ++ rest)) =
      some (names, tokens rest) :=
    listed_append rfl rfl rfl (fun n hn => reads_name (h n hn)) hr hend hmore
  rwa [List.map_id] at hlisted

/-- Names up to a phrase that begins with neither a name nor a comma. -/
theorem names_append {names : List String} (hn : ∀ n ∈ names, IsName n) {t : String}
    (hname : (tokens t.toList).head?.any (fun w => ¬IsName (String.ofList w)) = true)
    (hcomma : differ (tokens ",".toList) (tokens t.toList) = true)
    (hc : closes t.toList = true) (ho : opens (t.toList ++ rest) = true) :
    listed name (tokens ((commas names).toList ++ (t.toList ++ rest))) =
      some (names, tokens (t.toList ++ rest)) :=
  listed_names hn ho (name_other hname (.inl hc)) (bind_none (phrase_other hcomma (.inl hc)))

theorem terms_append {row : List Term} (h : ∀ t ∈ row, t = .parameter) :
    listed term (tokens ((commas (row.map Term.text)).toList ++ (")".toList ++ rest))) =
      some (row, tokens (")".toList ++ rest)) :=
  listed_append rfl rfl rfl (fun t ht => h t ht ▸ reads_term) rfl
    (bind_none (phrase_other (s := "?") (by decide) (.inl rfl)))
    (bind_none (phrase_other (s := ",") (by decide) (.inl rfl)))

theorem reads_tuple {row : List Term} (h : ∀ t ∈ row, t = .parameter) :
    Reads tuple ("(" ++ commas (row.map Term.text) ++ ")") row where
  takes _ := by
    simp only [String.toList_append, List.append_assoc]
    rw [tuple, bind_eq (phrase_append (.inl rfl)), bind_eq (terms_append h),
      bind_eq (phrase_append (.inl rfl))]
    rfl
  nonempty := by
    rw [String.toList_append, String.toList_append, List.append_assoc, tokens_append (.inl rfl)]
    exact nofun

theorem tuple_other : tuple (tokens (";".toList ++ rest)) = none := by
  rw [tuple, bind_none (phrase_other (by decide) (.inl rfl))]

theorem rows_append {rows : List (List Term)} (h : ∀ row ∈ rows, ∀ t ∈ row, t = .parameter) :
    listed tuple (tokens ((tuples rows).toList ++ (";".toList ++ rest))) =
      some (rows, tokens (";".toList ++ rest)) :=
  listed_append rfl rfl rfl (fun row hrow => reads_tuple (h row hrow)) rfl tuple_other
    (bind_none (phrase_other (s := ",") (by decide) (.inl rfl)))

def affinityText : Affinity → String
  | .integer => " INTEGER"
  | .text => " TEXT"

def ruleText : Rule → String
  | .required => " NOT NULL"
  | .key => " PRIMARY KEY"

theorem columnText_eq (c : Column) :
    c.text = c.name ++ (affinityText c.affinity ++ ruleText c.rule) :=
  String.append_assoc

theorem reads_affinity (a : Affinity) : Reads affinity (affinityText a) a := by
  cases a with
  | integer => exact ⟨fun hr => bind_eq (flag_append (.inr hr)), by decide⟩
  | text =>
    refine ⟨fun hr => ?_, by decide⟩
    rw [affinity, affinityText, bind_eq (flag_other (by decide) (.inr hr)),
      if_neg Bool.false_ne_true, bind_eq (phrase_append (.inr hr))]
    rfl

theorem reads_rule (r : Rule) : Reads rule (ruleText r) r := by
  cases r with
  | required => exact ⟨fun hr => bind_eq (flag_append (.inr hr)), by decide⟩
  | key =>
    refine ⟨fun hr => ?_, by decide⟩
    rw [rule, ruleText, bind_eq (flag_other (by decide) (.inr hr)), if_neg Bool.false_ne_true,
      bind_eq (phrase_append (.inr hr))]
    rfl

theorem opens_affinityText (a : Affinity) : opens ((affinityText a).toList ++ rest) = true := by
  cases a <;> rfl

theorem opens_ruleText (r : Rule) : opens ((ruleText r).toList ++ rest) = true := by
  cases r <;> rfl

theorem reads_column {c : Column} (h : IsName c.name) : Reads column c.text c where
  takes hr := by
    simp only [columnText_eq, String.toList_append, List.append_assoc]
    rw [column, bind_eq (name_append h (opens_affinityText _)),
      bind_eq ((reads_affinity _).takes (opens_ruleText _)), bind_eq ((reads_rule _).takes hr)]
    rfl
  nonempty := by
    simp only [columnText_eq, String.toList_append]
    rw [tokens_append (.inr (opens_affinityText _)), h.tokens_eq]
    exact nofun

/-- Blanks before a text are passed over. -/
theorem tokens_indented (s : List Char) : tokens ("    ".toList ++ s) = tokens s :=
  tokens_append (.inl rfl)

theorem reads_line {c : Column} (h : IsName c.name) : Reads column ("    " ++ c.text) c where
  takes hr := by
    rw [String.toList_append, List.append_assoc, tokens_indented]
    exact (reads_column h).takes hr
  nonempty := by
    rw [String.toList_append, tokens_indented]
    exact (reads_column h).nonempty

/-- The lines of columns after others. -/
def nextLines (columns : List Column) : String :=
  String.join ((columns.map fun c => "    " ++ c.text).map (",\n" ++ ·))

/-- What is written of a column, up to the comma or the bracket after it, is not what is written of
one that numbers rows. -/
theorem phrase_numbering (a : Affinity) (r : Rule) {t : String} (ht : t ∈ [",\n", "\n)"])
    (rest : List Char) :
    phrase " INTEGER PRIMARY KEY AUTOINCREMENT NOT NULL" (tokens ((affinityText a).toList ++
      ((ruleText r).toList ++ (t.toList ++ rest)))) = none := by
  have hc : closes (affinityText a ++ ruleText r ++ t).toList = true := by
    rw [List.mem_pair] at ht
    cases a <;> cases r <;> obtain rfl | rfl := ht <;> rfl
  have hd : differ (tokens " INTEGER PRIMARY KEY AUTOINCREMENT NOT NULL".toList)
      (tokens (affinityText a ++ ruleText r ++ t).toList) = true := by
    rw [List.mem_pair] at ht
    cases a <;> cases r <;> obtain rfl | rfl := ht <;> decide
  have h : phrase _ (tokens ((affinityText a ++ ruleText r ++ t).toList ++ rest)) = none :=
    phrase_other hd (.inl hc)
  rwa [String.toList_append, String.toList_append, List.append_assoc, List.append_assoc] at h

theorem numbering_other {columns : List Column} (rest : List Char) (h : ∀ c ∈ columns, IsName c.name) :
    numbering (tokens ((",\n".intercalate (columns.map fun c => "    " ++ c.text)).toList ++
      ("\n)".toList ++ rest))) =
        some (none, tokens ((",\n".intercalate (columns.map fun c => "    " ++ c.text)).toList ++
          ("\n)".toList ++ rest))) := by
  refine orElse_none ?_
  cases columns with
  | nil => exact bind_none (name_other (t := "\n)") (by decide) (.inl rfl))
  | cons c columns =>
    rw [List.map_cons, intercalate_cons]
    simp only [columnText_eq, String.toList_append, List.append_assoc, tokens_indented]
    rw [bind_eq (name_append (h c List.mem_cons_self) (opens_affinityText _))]
    refine bind_none ?_
    cases columns with
    | nil => exact phrase_numbering _ _ (t := "\n)") (by decide) rest
    | cons d columns =>
      rw [List.map_cons, List.map_cons, String.join_cons]
      simp only [String.toList_append, List.append_assoc]
      exact phrase_numbering _ _ (t := ",\n") (by decide) _

theorem numbering_append {n : String} (hn : IsName n) (hr : opens rest = true) :
    numbering (tokens ("    ".toList ++ (n.toList ++
      (" INTEGER PRIMARY KEY AUTOINCREMENT NOT NULL".toList ++ rest)))) =
        some (some n, tokens rest) := by
  refine orElse_eq ?_
  rw [tokens_indented, bind_eq (name_append hn rfl), bind_eq (phrase_append (.inr hr))]
  rfl

theorem layout_append {l : Layout} (h : ∀ n ∈ l.names, IsName n) :
    layout (tokens (l.text.toList ++ rest)) = some (l, tokens rest) := by
  obtain ⟨n, rowNumber, columns⟩ := l
  obtain ⟨hn, h⟩ := List.forall_mem_cons.1 h
  obtain ⟨hrow, h⟩ := List.forall_mem_append.1 h
  have hlines : ∀ c ∈ columns, Reads column ("    " ++ c.text) c :=
    fun c hc => reads_line (h _ (List.mem_map_of_mem hc))
  have hcomma : (do phrase ","; column) (tokens ("\n)".toList ++ rest)) = none :=
    bind_none (phrase_other (by decide) (.inl rfl))
  simp only [Layout.text, String.toList_append, List.append_assoc]
  rw [layout, bind_eq (name_append hn rfl), bind_eq (phrase_append (.inl rfl))]
  cases rowNumber with
  | none =>
    have hnumbering := numbering_other rest fun c hc => h _ (List.mem_map_of_mem hc)
    have hcolumns : listed column (tokens ((",\n".intercalate (columns.map fun c =>
        "    " ++ c.text)).toList ++ ("\n)".toList ++ rest))) =
          some (columns, tokens ("\n)".toList ++ rest)) :=
      listed_append rfl rfl rfl hlines rfl (bind_none (name_other (by decide) (.inl rfl))) hcomma
    simp only [Option.toList_none, List.map_nil, List.nil_append, List.map_map, Function.comp_def]
    rw [bind_eq hnumbering, columnsAfter, bind_eq hcolumns, bind_eq (phrase_append (.inl rfl))]
    rfl
  | some r =>
    have hopens : opens ((nextLines columns).toList ++ ("\n)".toList ++ rest)) = true :=
      opens_join (opens_next (by decide) rfl _) rfl
    have hcolumns : columnsAfter (some r) (tokens ((nextLines columns).toList ++
        ("\n)".toList ++ rest))) = some (columns, tokens ("\n)".toList ++ rest)) :=
      all_next rfl rfl rfl hlines rfl hcomma
    simp only [Option.toList_some, List.map_cons, List.map_nil, List.singleton_append,
      intercalate_cons, String.toList_append, List.append_assoc, List.map_map (f := Column.text),
      Function.comp_def]
    refine (bind_eq (numbering_append (hrow r List.mem_cons_self) hopens)).trans ?_
    rw [bind_eq hcolumns, bind_eq (phrase_append (.inl rfl))]
    rfl

theorem opens_conditionText (c : Condition Term) (hr : opens rest = true) :
    opens (c.text.toList ++ rest) = true := by
  cases c with
  | always => exact hr
  | between | equals | atMost =>
    simp only [Condition.text, toString, String.toList_append, List.append_assoc]
    rfl

theorem condition_append {c : Condition Term} (hn : ∀ n ∈ c.names, IsName n)
    (ht : ∀ t ∈ c.terms, t = .parameter) (hr : opens rest = true)
    (hend : flag " WHERE " (tokens rest) = some (false, tokens rest)) :
    condition (tokens (c.text.toList ++ rest)) = some (c, tokens rest) := by
  cases c with
  | always => exact bind_eq hend
  | between n low high =>
    obtain rfl : low = .parameter := ht low List.mem_cons_self
    obtain rfl : high = .parameter := ht high (List.mem_cons_of_mem _ List.mem_cons_self)
    simp only [Condition.text, toString, String.toList_append, List.append_assoc]
    rw [condition, bind_eq (flag_append (.inl rfl)), if_pos rfl,
      bind_eq (name_append (hn n List.mem_cons_self) rfl), bind_eq (flag_append (.inl rfl)),
      if_pos rfl, bind_eq (reads_term.takes rfl), bind_eq (phrase_append (.inl rfl)),
      bind_eq (reads_term.takes hr)]
    rfl
  | equals n v =>
    obtain rfl : v = .parameter := ht v List.mem_cons_self
    simp only [Condition.text, toString, String.toList_append, List.append_assoc]
    rw [condition, bind_eq (flag_append (.inl rfl)), if_pos rfl,
      bind_eq (name_append (hn n List.mem_cons_self) rfl),
      bind_eq (flag_other (by decide) (.inl rfl)), if_neg Bool.false_ne_true,
      bind_eq (flag_other (by decide) (.inl rfl)), if_neg Bool.false_ne_true,
      bind_eq (phrase_append (.inl rfl)), bind_eq (reads_term.takes hr)]
    rfl
  | atMost n v =>
    obtain rfl : v = .parameter := ht v List.mem_cons_self
    simp only [Condition.text, toString, String.toList_append, List.append_assoc]
    rw [condition, bind_eq (flag_append (.inl rfl)), if_pos rfl,
      bind_eq (name_append (hn n List.mem_cons_self) rfl),
      bind_eq (flag_other (by decide) (.inl rfl)), if_neg Bool.false_ne_true,
      bind_eq (flag_append (.inl rfl)), if_pos rfl, bind_eq (reads_term.takes hr)]
    rfl

/-- The order that is written by a column named in a certain way. -/
def orderText (named : String → String) : Order → String
  | .insertion => ""
  | .ascending column => " ORDER BY " ++ named column ++ " ASC"
  | .descending column => " ORDER BY " ++ named column ++ " DESC"

theorem orderText_id (o : Order) : o.text = orderText id o := by
  cases o <;> rfl

theorem orderText_within (source : String) (o : Order) :
    (o.within source).text = orderText (source ++ "." ++ ·) o := by
  cases o <;> rfl

theorem opens_orderText (named : String → String) (o : Order) :
    opens ((orderText named o).toList ++ (";".toList ++ rest)) = true := by
  cases o <;> simp only [orderText, String.toList_append, List.append_assoc] <;> rfl

theorem flag_where_orderText (named : String → String) (o : Order) :
    flag " WHERE " (tokens ((orderText named o).toList ++ (";".toList ++ rest))) =
      some (false, tokens ((orderText named o).toList ++ (";".toList ++ rest))) := by
  cases o with
  | insertion => exact flag_other (t := ";") (by decide) (.inl rfl)
  | ascending n | descending n =>
    simp only [orderText, String.toList_append, List.append_assoc]
    exact flag_other (t := " ORDER BY ") (by decide) (.inl rfl)

theorem order_append (named : String → String) {column : Reader String} {o : Order}
    (h : ∀ n ∈ o.names, Reads column (named n) n) :
    order column (tokens ((orderText named o).toList ++ (";".toList ++ rest))) =
      some (o, tokens (";".toList ++ rest)) := by
  cases o with
  | insertion => exact bind_eq (flag_other (t := ";") (by decide) (.inl rfl))
  | ascending n =>
    simp only [orderText, String.toList_append, List.append_assoc]
    rw [order, bind_eq (flag_append (.inl rfl)), if_pos rfl,
      bind_eq ((h n List.mem_cons_self).takes rfl), bind_eq (flag_append (.inr rfl))]
    rfl
  | descending n =>
    simp only [orderText, String.toList_append, List.append_assoc]
    rw [order, bind_eq (flag_append (.inl rfl)), if_pos rfl,
      bind_eq ((h n List.mem_cons_self).takes rfl), bind_eq (flag_other (by decide) (.inr rfl)),
      if_neg Bool.false_ne_true, bind_eq (phrase_append (.inr rfl))]
    rfl

/-- A name has no quotes in it. -/
theorem quoted_of_isName {n : String} (h : IsName n) : quoted n = "'" ++ n ++ "'" := by
  have hchars := List.all_eq_true.1 h.chars
  have hflat : (n.toList.flatMap fun c => if c = '\'' then [c, c] else [c]) = n.toList := by
    rw [List.flatMap_congr (g := fun c => [c]) fun c hc => if_neg ?_, List.flatMap_singleton']
    rintro rfl
    exact absurd (hchars _ hc) (by decide)
  rw [quoted, hflat, String.ofList_toList]

def armText (p : String × Nat) : String :=
  " WHEN " ++ (Value.text p.1).written ++ " THEN " ++ Text.natural p.2

theorem reads_arm {p : String × Nat} (h : IsName p.1) : Reads arm (armText p) p where
  takes hr := by
    simp only [armText, Value.written, quoted_of_isName h, String.toList_append,
      List.append_assoc]
    rw [arm, bind_eq (phrase_append (.inl rfl)), bind_eq (phrase_append (.inl rfl)),
      bind_eq (name_append h rfl), bind_eq (phrase_append (.inl rfl)),
      bind_eq (phrase_append (.inl rfl)), bind_eq (number_append _ hr)]
    rfl
  nonempty := by
    simp only [armText, String.toList_append, List.append_assoc]
    rw [tokens_append (.inl rfl)]
    exact nofun

theorem arms_append {ranks : List (String × Nat)} (h : ∀ p ∈ ranks, IsName p.1)
    (hr : opens rest = true) :
    all arm (tokens ((String.join (ranks.map armText)).toList ++ (" ELSE 0 END".toList ++ rest))) =
      some (ranks, tokens (" ELSE 0 END".toList ++ rest)) := by
  refine all_append (fun p hp => reads_arm (h p hp)) (List.forall_mem_map.2 fun p _ => ?_) rfl
    (bind_none (phrase_other (by decide) (.inr hr)))
  simp only [armText, String.toList_append, List.append_assoc]
  rfl

end Parts

end AdLedger.Sql.Reader
