import AdLedger.Proofs.Sql.Table
import AdLedger.Proofs.Sql.Text
import Mathlib.Data.List.Forall2

/-!
# Transactions as a whole

What it means that statements are carried out one after the other through a connection (`Runs`), and
that they stop at one that is refused (`Stops`), told without the function that does so. One of the
two is the case (`runs_or_stops`). In the first case a transaction ends where the last statement ends
and returns the rows of the last query, if the connection lets it end (`Connection.transact_of_runs`).
Otherwise it leaves the database as it was (`Connection.transact_of_stops`,
`Connection.transact_of_not_committed`). For this is relied on connections (`Connection.Lawful`): a
transaction that is given up leaves the database as it began, however far it has got, if none of its
statements begins or ends transactions itself (`Connection.Within`).
-/

namespace AdLedger.Sql

/-! ## Rows of a result -/

/-- For each declared column, a row of a result has the stored value in the declared type. -/
def Typed (columns : List ColumnType) (r : Record) (row : Row) : Prop :=
  row.length = columns.length ∧
    ∀ (i : Nat) (type : ColumnType), columns[i]? = some type →
      ∃ v, r[i]? = some v ∧ row[i]? = some (type.cell v)

theorem Typed.length_le {columns : List ColumnType} {r : Record} {row : Row}
    (h : Typed columns r row) : columns.length ≤ r.length := by
  by_contra hlt
  have hlt : r.length < columns.length := Nat.not_le.1 hlt
  obtain ⟨v, hv, -⟩ := h.2 r.length columns[r.length] (List.getElem?_eq_getElem hlt)
  simp at hv

theorem typed_eq_ok_iff {ε : Type} {noColumn : Nat → ε} {columns : List ColumnType} {r : Record}
    {row : Row} : Statement.typed noColumn columns r = .ok row ↔ Typed columns r row := by
  unfold Statement.typed
  constructor
  · intro h
    split at h
    next hle =>
      cases h
      refine ⟨by simp [hle], ?_⟩
      intro i type htype
      have hi : i < r.length := Nat.lt_of_lt_of_le (List.getElem?_eq_some_iff.1 htype).1 hle
      exact ⟨r[i], List.getElem?_eq_getElem hi, by simp [List.getElem?_zipWith, htype, hi]⟩
    next => cases h
  · intro h
    rw [if_pos h.length_le]
    obtain ⟨hlen, hcell⟩ := h
    congr 1
    refine List.ext_getElem? fun i => ?_
    cases htype : columns[i]? with
    | none =>
      have hi : row.length ≤ i := hlen.symm ▸ List.getElem?_eq_none_iff.1 htype
      simp [List.getElem?_zipWith, htype, hi]
    | some type =>
      obtain ⟨v, hv, hrow⟩ := hcell i type htype
      simp [List.getElem?_zipWith, htype, hv, hrow]

theorem mapM_typed_eq_ok_iff {ε : Type} {noColumn : Nat → ε} {columns : List ColumnType}
    {records : List Record} {rows : List Row} :
    records.mapM (Statement.typed noColumn columns) = .ok rows ↔
      List.Forall₂ (Typed columns) records rows := by
  induction records generalizing rows with
  | nil => simp [pure, Except.pure, List.forall₂_nil_left_iff, eq_comm]
  | cons r records ih =>
    rw [List.mapM_cons, bind_eq_ok]
    constructor
    · rintro ⟨row, hrow, h⟩
      obtain ⟨rest, hrest, h⟩ := bind_eq_ok.1 h
      cases h
      exact .cons (typed_eq_ok_iff.1 hrow) (ih.1 hrest)
    · rintro (_ | ⟨hrow, hrest⟩)
      exact ⟨_, typed_eq_ok_iff.2 hrow, bind_eq_ok.2 ⟨_, ih.2 hrest, rfl⟩⟩

theorem length_le_of_typed {columns : List ColumnType} {records : List Record} {rows : List Row}
    (h : List.Forall₂ (Typed columns) records rows) {r : Record} (hr : r ∈ records) :
    columns.length ≤ r.length := by
  induction h with
  | nil => cases hr
  | cons htyped _ ih =>
    obtain rfl | hr := List.mem_cons.1 hr
    · exact htyped.length_le
    · exact ih hr

/-- Rows that are long enough have the declared types. -/
theorem exists_typed {columns : List ColumnType} {records : List Record}
    (h : ∀ r ∈ records, columns.length ≤ r.length) :
    ∃ rows, List.Forall₂ (Typed columns) records rows := by
  have hrows : records.mapM (Statement.typed id columns) = .ok _ := mapM_typed h
  exact ⟨_, mapM_typed_eq_ok_iff.1 hrows⟩

theorem Answer.rows_eq_ok_iff {ε : Type} {noColumn : Nat → ε} {columns : List ColumnType}
    {a : Answer ε} {rows : List Row} : a.rows noColumn columns = .ok rows ↔
      a.ended = .ok () ∧ List.Forall₂ (Typed columns) a.records rows := by
  rw [Answer.rows, bind_eq_ok]
  constructor
  · rintro ⟨rows', htyped, h⟩
    obtain ⟨⟨⟩, hended, h⟩ := bind_eq_ok.1 h
    cases h
    exact ⟨hended, mapM_typed_eq_ok_iff.1 htyped⟩
  · rintro ⟨hended, htyped⟩
    exact ⟨rows, mapM_typed_eq_ok_iff.2 htyped, bind_eq_ok.2 ⟨(), hended, rfl⟩⟩

/-! ## One statement -/

section Connections

variable {ε σ τ : Type} {c : Connection ε σ τ} {s : Statement} {statements : List Statement}
  {t u : τ} {result : Option (List Row)} {results : List (List Row)}

namespace Statement

/-- What a statement does that is carried out: its command takes the transaction from one state to
another. Only a query has rows, each in the declared types. -/
inductive Does (c : Connection ε σ τ) (s : Statement) (t u : τ) : Option (List Row) → Prop where
  | execute (ho : s.operation = .execute) (h : c.execute s.command t = (.ok (), u)) :
      Does c s t u none
  | run (ho : s.operation = .run) (h : c.run s.command s.values t = (.ok (), u)) :
      Does c s t u none
  | step {records : List Record} {rows : List Row} (ho : s.operation = .step)
      (h : c.query s.command s.values t = (⟨records, .ok ()⟩, u))
      (ht : List.Forall₂ (Typed s.columns) records rows) : Does c s t u (some rows)

/-- A statement is not carried out: the connection refuses its text or its values, or it returns a
row that is too short for the declared columns. -/
inductive Refused (c : Connection ε σ τ) (s : Statement) (t : τ) : Prop where
  | execute {reason : ε} {u : τ} (ho : s.operation = .execute)
      (h : c.execute s.command t = (.error reason, u))
  | run {reason : ε} {u : τ} (ho : s.operation = .run)
      (h : c.run s.command s.values t = (.error reason, u))
  | query {reason : ε} {u : τ} {records : List Record} (ho : s.operation = .step)
      (h : c.query s.command s.values t = (⟨records, .error reason⟩, u))
  | noColumn {a : Answer ε} {u : τ} {r : Record} (ho : s.operation = .step)
      (h : c.query s.command s.values t = (a, u)) (hr : r ∈ a.records)
      (hlen : r.length < s.columns.length)

theorem does_iff : s.Does c t u result ↔ c.perform s t = (.ok result, u) := by
  constructor
  · rintro (⟨ho, h⟩ | ⟨ho, h⟩ | ⟨ho, h, ht⟩)
    · simp only [Connection.perform, ho, h, Except.map]
    · simp only [Connection.perform, ho, h, Except.map]
    · simp only [Connection.perform, ho, h]
      rw [Answer.rows_eq_ok_iff.2 ⟨rfl, ht⟩]
      rfl
  · intro h
    cases ho : s.operation with
    | execute =>
      rcases hc : c.execute s.command t with ⟨_ | _, after⟩
      · simp [Connection.perform, ho, hc, Except.map] at h
      · simp only [Connection.perform, ho, hc, Except.map] at h
        cases h
        exact .execute ho hc
    | run =>
      rcases hc : c.run s.command s.values t with ⟨_ | _, after⟩
      · simp [Connection.perform, ho, hc, Except.map] at h
      · simp only [Connection.perform, ho, hc, Except.map] at h
        cases h
        exact .run ho hc
    | step =>
      rcases hc : c.query s.command s.values t with ⟨⟨records, ended⟩, after⟩
      simp only [Connection.perform, ho, hc] at h
      cases hrows : Answer.rows c.noColumn s.columns ⟨records, ended⟩ with
      | error e =>
        rw [hrows] at h
        cases h
      | ok rows =>
        rw [hrows] at h
        cases h
        obtain ⟨rfl, ht⟩ := Answer.rows_eq_ok_iff.1 hrows
        exact .step ho hc ht

/-- A statement that is refused is not carried out. -/
theorem Refused.not_does (h : s.Refused c t) : ¬ s.Does c t u result := by
  intro hd
  cases h with
  | execute ho h => cases hd <;> simp_all
  | run ho h => cases hd <;> simp_all
  | query ho h => cases hd <;> simp_all
  | noColumn ho h hr hlen =>
    cases hd with
    | execute ho' => cases ho.symm.trans ho'
    | run ho' => cases ho.symm.trans ho'
    | step _ h' ht =>
      cases h.symm.trans h'
      exact Nat.not_lt.2 (length_le_of_typed ht hr) hlen

/-- Every statement is carried out or refused. -/
theorem does_or_refused (c : Connection ε σ τ) (s : Statement) (t : τ) :
    (∃ u result, s.Does c t u result) ∨ s.Refused c t := by
  cases ho : s.operation with
  | execute =>
    rcases h : c.execute s.command t with ⟨_ | _, u⟩
    · exact .inr (.execute ho h)
    · exact .inl ⟨u, none, .execute ho h⟩
  | run =>
    rcases h : c.run s.command s.values t with ⟨_ | _, u⟩
    · exact .inr (.run ho h)
    · exact .inl ⟨u, none, .run ho h⟩
  | step =>
    rcases h : c.query s.command s.values t with ⟨⟨records, _ | _⟩, u⟩
    · exact .inr (.query ho h)
    · by_cases hlen : ∀ r ∈ records, s.columns.length ≤ r.length
      · obtain ⟨rows, ht⟩ := exists_typed hlen
        exact .inl ⟨u, some rows, .step ho h ht⟩
      · simp only [not_forall, Nat.not_le] at hlen
        obtain ⟨r, hr, hlen⟩ := hlen
        exact .inr (.noColumn ho h hr hlen)

theorem refused_iff : s.Refused c t ↔ ∃ reason u, c.perform s t = (.error reason, u) := by
  constructor
  · intro h
    rcases hp : c.perform s t with ⟨reason | result, u⟩
    · exact ⟨reason, u, rfl⟩
    · exact absurd (does_iff.2 hp) h.not_does
  · rintro ⟨reason, u, hp⟩
    refine (does_or_refused c s t).resolve_left ?_
    rintro ⟨u', result, hd⟩
    cases hp.symm.trans (does_iff.1 hd)

end Statement

/-! ## Statements one after the other -/

/-- Statements are all carried out, one after the other, and the queries among them return rows. -/
inductive Runs (c : Connection ε σ τ) : τ → List Statement → τ → List (List Row) → Prop where
  | nil (t : τ) : Runs c t [] t []
  | cons {t mid u : τ} {s : Statement} {rest : List Statement} {result : Option (List Row)}
      {results : List (List Row)} (hs : s.Does c t mid result)
      (hrest : Runs c mid rest u results) : Runs c t (s :: rest) u (result.toList ++ results)

/-- Statements are carried out one after the other up to one that is refused. -/
def Stops (c : Connection ε σ τ) (t : τ) (statements : List Statement) : Prop :=
  ∃ before s rest mid results, statements = before ++ s :: rest ∧ Runs c t before mid results ∧
    s.Refused c mid

theorem Runs.append {mid : τ} {rest : List Statement} {more : List (List Row)}
    (h : Runs c t statements mid results) (h' : Runs c mid rest u more) :
    Runs c t (statements ++ rest) u (results ++ more) := by
  induction h with
  | nil t => exact h'
  | cons hs _ ih =>
    rw [List.cons_append, List.append_assoc]
    exact .cons hs (ih h')

theorem exists_of_runs_append {rest : List Statement} (h : Runs c t (statements ++ rest) u results) :
    ∃ mid first more, Runs c t statements mid first ∧ Runs c mid rest u more := by
  induction statements generalizing t results with
  | nil => exact ⟨t, [], results, .nil t, h⟩
  | cons s statements ih =>
    cases h with
    | cons hs hrest =>
      obtain ⟨mid, first, more, hfirst, hmore⟩ := ih hrest
      exact ⟨mid, _, more, .cons hs hfirst, hmore⟩

theorem Runs.stops_append {mid : τ} {rest : List Statement} (h : Runs c t statements mid results)
    (h' : Stops c mid rest) : Stops c t (statements ++ rest) := by
  obtain ⟨before, s, after, last, more, rfl, hruns, hs⟩ := h'
  exact ⟨statements ++ before, s, after, last, _, (List.append_assoc ..).symm, h.append hruns, hs⟩

theorem Stops.append (h : Stops c t statements) (rest : List Statement) :
    Stops c t (statements ++ rest) := by
  obtain ⟨before, s, after, mid, results, rfl, hruns, hs⟩ := h
  exact ⟨before, s, after ++ rest, mid, results, by simp, hruns, hs⟩

/-- Statements are all carried out, or they stop. -/
theorem runs_or_stops (c : Connection ε σ τ) (t : τ) (statements : List Statement) :
    (∃ u results, Runs c t statements u results) ∨ Stops c t statements := by
  induction statements generalizing t with
  | nil => exact .inl ⟨t, [], .nil t⟩
  | cons s rest ih =>
    obtain ⟨mid, result, hd⟩ | hrefused := s.does_or_refused c t
    · have hone : Runs c t [s] mid _ := .cons hd (.nil mid)
      obtain ⟨u, results, hruns⟩ | hstops := ih mid
      · exact .inl ⟨u, _, hone.append hruns⟩
      · exact .inr (hone.stops_append hstops)
    · exact .inr ⟨[], s, rest, t, [], rfl, .nil t, hrefused⟩

theorem performAll_of_runs (h : Runs c t statements u results) (rows : List Row) :
    c.performAll rows statements t = (.ok (results.getLast?.getD rows), u) := by
  induction h generalizing rows with
  | nil t => rfl
  | @cons t mid u s rest result results hs _ ih =>
    rw [Connection.performAll, Statement.does_iff.1 hs]
    refine (ih (result.getD rows)).trans ?_
    cases result <;> cases results <;> simp [List.getLast?_cons]

theorem performAll_of_stops (h : Stops c t statements) (rows : List Row) :
    ∃ reason u, c.performAll rows statements t = (.error reason, u) := by
  obtain ⟨before, s, rest, mid, results, rfl, hruns, hs⟩ := h
  induction hruns generalizing rows with
  | nil t =>
    obtain ⟨reason, u, hp⟩ := Statement.refused_iff.1 hs
    exact ⟨reason, u, by rw [List.nil_append, Connection.performAll, hp]⟩
  | cons hd _ ih =>
    rw [List.cons_append, Connection.performAll, Statement.does_iff.1 hd]
    exact ih _ hs

/-! ## Giving up -/

namespace Connection

/-- Whatever becomes of it, a statement leaves the transaction begun where it was: it neither begins
transactions nor ends them. -/
def Within (c : Connection ε σ τ) (s : Statement) : Prop :=
  ∀ t, c.rollback (c.perform s t).2 = c.rollback t

/-- What is relied on of a connection. -/
structure Lawful (c : Connection ε σ τ) : Prop where
  now_start : ∀ s t, c.start s = .ok t → c.now t = s
  /-- A transaction that is given up at once has changed nothing. -/
  rollback_start : ∀ s t, c.start s = .ok t → c.rollback t = s
  within : ∀ s : Statement, s.command.Plain → c.Within s

variable {db : σ}

theorem rollback_performAll (h : ∀ s ∈ statements, c.Within s) (rows : List Row) (t : τ) :
    c.rollback (c.performAll rows statements t).2 = c.rollback t := by
  induction statements generalizing rows t with
  | nil => rfl
  | cons s rest ih =>
    obtain ⟨hs, hrest⟩ := List.forall_mem_cons.1 h
    have hbefore := hs t
    rw [performAll]
    rcases hp : c.perform s t with ⟨_ | result, after⟩ <;> rw [hp] at hbefore
    · exact hbefore
    · exact (ih hrest (result.getD rows) after).trans hbefore

theorem transact_of_not_started {reason : ε} (h : c.start db = .error reason) :
    c.transact statements db = (.error reason, db) := by
  rw [transact, h]

/-- A transaction that may end does so after its last statement, with the rows of its last query. -/
theorem transact_of_runs (hs : c.start db = .ok t) (h : Runs c t statements u results)
    (hc : c.commit u = .ok ()) :
    c.transact statements db = (.ok (results.getLast?.getD []), c.now u) := by
  simp only [transact, hs, performAll_of_runs h, hc]

/-- A transaction that stops has no effect. -/
theorem transact_of_stops (hl : c.Lawful) (hw : ∀ s ∈ statements, c.Within s)
    (hs : c.start db = .ok t) (h : Stops c t statements) :
    ∃ reason, c.transact statements db = (.error reason, db) := by
  obtain ⟨reason, u, hp⟩ := performAll_of_stops h []
  have hbefore := rollback_performAll hw [] t
  rw [hp, hl.rollback_start db t hs] at hbefore
  refine ⟨reason, ?_⟩
  simp only [transact, hs, hp, hbefore]

/-- A transaction that may not end has no effect. -/
theorem transact_of_not_committed (hl : c.Lawful) (hw : ∀ s ∈ statements, c.Within s)
    (hs : c.start db = .ok t) (h : Runs c t statements u results) {reason : ε}
    (hc : c.commit u = .error reason) : c.transact statements db = (.error reason, db) := by
  have hbefore := rollback_performAll hw [] t
  rw [performAll_of_runs h, hl.rollback_start db t hs] at hbefore
  simp only [transact, hs, performAll_of_runs h, hc, hbefore]

end Connection

end Connections

/-! ## The connection of a database -/

namespace Statement

variable {s : Statement}

/-- Some of the reasons for which a database does not carry out a statement. -/
inductive Faulty (s : Statement) (db : Database) : Prop where
  | noTable {name : String} (h : s.command.needs? = some name) (hn : db.table? name = none)
  | wrongCount (ho : s.operation ≠ .execute) (h : s.values.length ≠ s.command.parameterCount)
  | nullRefused {name : String} {names : List String} {rows : List Record} {t : Table}
      {r : Record} {c : Column} (hf : s.filled = .ok (.insert name names rows))
      (ht : db.table? name = some t) (hr : r ∈ rows) (hc : c.rule = .required)
      (hv : (c, Value.null) ∈ t.layout.columns.zip (t.layout.record names r))

theorem Faulty.carryOut_ne_ok {db after : Database} {records : List Record} (h : s.Faulty db) :
    s.carryOut db ≠ .ok (after, records) := by
  intro hcarry
  obtain ⟨command, hf, hp⟩ := bind_eq_ok.1 hcarry
  obtain ⟨values, hfill, hvalues⟩ := fill_of_filled hf
  cases h with
  | noTable h hn =>
    rw [← Command.needs?_fill hfill] at h
    exact Database.table?_ne_none_of_needs? h hp hn
  | wrongCount ho h =>
    have hlen := Command.length_of_fill hfill
    rw [hvalues ho, List.length_map] at hlen
    exact h hlen
  | nullRefused hf' ht hr hc hv =>
    cases hf.symm.trans hf'
    obtain ⟨t, ht', hp⟩ := bind_eq_ok.1 hp
    cases ht.symm.trans (Database.table?_of_table ht')
    obtain ⟨_, hrecords, hp⟩ := bind_eq_ok.1 hp
    obtain ⟨_, hinsert, -⟩ := bind_eq_ok.1 hp
    cases Database.records_eq_ok hrecords
    obtain ⟨u, hu, hallows⟩ := Table.allows_of_insertAll hinsert (List.mem_map_of_mem hr)
    exact Table.ne_null_of_allows hallows (hu ▸ hv) hc rfl

/-- A statement that is faulty is refused. -/
theorem Faulty.refused {t : Pending} (h : s.Faulty t.now) : s.Refused Database.connection t := by
  refine refused_iff.2 ?_
  cases hp : s.perform t.now with
  | error refusal =>
    obtain ⟨after, hperform, -⟩ := (Database.connection_perform s t).2 refusal hp
    exact ⟨refusal, after, hperform⟩
  | ok done =>
    obtain ⟨after, result⟩ := done
    obtain ⟨records, hcarry⟩ := carryOut_of_perform hp
    exact absurd hcarry h.carryOut_ne_ok

end Statement

namespace Database

/-- No statement of a database begins a transaction or ends one. -/
theorem within_connection (s : Statement) : connection.Within s := by
  intro t
  obtain ⟨hok, herror⟩ := connection_perform s t
  cases hp : s.perform t.now with
  | ok done => rw [hok done.1 done.2 hp]; rfl
  | error refusal =>
    obtain ⟨after, hperform, hbefore⟩ := herror refusal hp
    rw [hperform]
    exact hbefore

/-- What a connection carries out that performs statements as that of the database does. -/
theorem perform_of_does {c : Connection Refusal Database Pending} {s : Statement} {t u : Pending}
    {result : Option (List Row)} (hc : c.perform s t = connection.perform s t)
    (h : s.Does c t u result) : s.perform t.now = .ok (u.now, result) := by
  have hdone := hc.symm.trans (Statement.does_iff.1 h)
  obtain ⟨hok, herror⟩ := connection_perform s t
  cases hp : s.perform t.now with
  | ok done =>
    cases (hok done.1 done.2 hp).symm.trans hdone
    rfl
  | error refusal =>
    obtain ⟨after, hperform, -⟩ := herror refusal hp
    cases hperform.symm.trans hdone

theorem lawful_connection : connection.Lawful where
  now_start s t h := by cases h; rfl
  rollback_start s t h := by cases h; rfl
  within s _ := within_connection s

end Database

end AdLedger.Sql
