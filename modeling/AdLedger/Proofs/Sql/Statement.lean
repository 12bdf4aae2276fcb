import AdLedger.Sql.Transaction
import Mathlib.Algebra.GroupWithZero.Nat
import Mathlib.Data.List.Basic

/-!
# Carrying out statements

What a statement does, once its values are in the place of its parameters. A command for rows of
parameters takes one value after the other, row by row (`fillRows_parameters`); a query changes
nothing and returns its rows in the declared types. A command has an effect on the table of a name
only if it says so (`Command.changes?`), and leaves every other table of the database as it was.
-/

namespace AdLedger.Sql

theorem bind_eq_ok {ε α β : Type} {x : Except ε α} {f : α → Except ε β} {b : β} :
    (x >>= f) = .ok b ↔ ∃ a, x = .ok a ∧ f a = .ok b := by
  cases x with
  | error e => exact ⟨nofun, fun ⟨_, h, _⟩ => nomatch h⟩
  | ok a => exact ⟨fun h => ⟨a, rfl, h⟩, fun ⟨_, h, hf⟩ => by cases h; exact hf⟩

/-! ## Filling in values -/

theorem fill_parameters (values rest : List Value) :
    (List.replicate values.length Term.parameter).mapM Term.fill (values ++ rest) =
      some (values, rest) := by
  induction values with
  | nil => rfl
  | cons v values ih =>
    rw [List.length_cons, List.replicate_succ, List.mapM_cons]
    simp only [bind, StateT.bind, Term.fill, List.cons_append, Option.bind_some, ih]
    rfl

theorem fillRows_parameters {width : Nat} (rows : List (List Value)) (rest : List Value)
    (h : ∀ r ∈ rows, r.length = width) :
    fillRows (List.replicate rows.length (List.replicate width .parameter))
      (rows.flatten ++ rest) = some (rows, rest) := by
  unfold fillRows
  induction rows with
  | nil => rfl
  | cons r rows ih =>
    obtain ⟨rfl, h⟩ := List.forall_mem_cons.1 h
    rw [List.length_cons, List.replicate_succ, List.mapM_cons, List.flatten_cons,
      List.append_assoc]
    simp only [bind, StateT.bind, fill_parameters, Option.bind_some, ih h]
    rfl

/-- As many parameters as fit into one command take their values. -/
theorem Statement.filled_of_fill {s : Statement} {command : Command Value}
    (ho : s.operation ≠ .execute) (hc : s.command.parameterCount ≤ mostParameters)
    (hf : s.command.fill (s.values.map Scalar.toValue) = some command) :
    s.filled = .ok command := by
  simp [Statement.filled, ho, Nat.not_lt.2 hc, hf]

/-- Filling in takes this many values, whatever comes after them. -/
def Filling.Takes {α : Type} (f : Filling α) (n : Nat) : Prop :=
  ∀ values a rest, f values = some (a, rest) → values.length = n + rest.length

namespace Filling

variable {α β : Type} {f : Filling α} {g : α → Filling β} {m n : Nat}

theorem takes_pure (a : α) : (pure a : Filling α).Takes 0 := by
  intro values b rest h
  cases h
  exact (Nat.zero_add _).symm

theorem Takes.bind (hf : f.Takes m) (hg : ∀ a, (g a).Takes n) : (f >>= g).Takes (m + n) := by
  intro values b rest h
  obtain ⟨⟨a, mid⟩, ha, hb⟩ := Option.bind_eq_some_iff.1 h
  rw [hf _ _ _ ha, hg a _ _ _ hb, Nat.add_assoc]

theorem Takes.map (hf : f.Takes n) (k : α → β) :
    (f >>= fun a => pure (k a) : Filling β).Takes n :=
  hf.bind fun a => takes_pure (k a)

theorem takes_fill (t : Term) : t.fill.Takes ([t].count .parameter) := by
  cases t with
  | literal v => exact takes_pure v
  | parameter =>
    intro values a rest h
    cases values with
    | nil => cases h
    | cons v values =>
      cases h
      simp [Nat.add_comm]

/-- What the parts of a list take, the list takes. -/
theorem takes_mapM {γ : Type} {k : γ → Filling β} {c : γ → Nat} (h : ∀ x, (k x).Takes (c x))
    (xs : List γ) : (xs.mapM k).Takes (xs.map c).sum := by
  induction xs with
  | nil => exact takes_pure []
  | cons x xs ih =>
    rw [List.mapM_cons, List.map_cons, List.sum_cons]
    exact (h x).bind fun y => ih.map (y :: ·)

theorem takes_terms (ts : List Term) : (ts.mapM Term.fill).Takes (ts.count .parameter) := by
  have hsum : (ts.map fun t => [t].count .parameter).sum = ts.count .parameter := by
    induction ts with
    | nil => rfl
    | cons t ts ih => rw [List.map_cons, List.sum_cons, ih, ← List.count_append]; rfl
  exact hsum ▸ takes_mapM takes_fill ts

theorem takes_fillRows (rows : List (List Term)) :
    (fillRows rows).Takes (rows.flatten.count .parameter) := by
  rw [List.count_flatten]
  exact takes_mapM takes_terms rows

theorem takes_condition (condition : Condition Term) :
    condition.fill.Takes (condition.terms.count .parameter) := by
  cases condition with
  | always => exact takes_pure _
  | between column low high =>
    have hcount : ([low] ++ [high]).count Term.parameter =
        [low].count .parameter + [high].count .parameter := List.count_append
    rw [Condition.terms, show [low, high] = [low] ++ [high] from rfl, hcount]
    exact (takes_fill low).bind fun l => (takes_fill high).map _
  | equals column value => exact (takes_fill value).map _
  | atMost column value => exact (takes_fill value).map _

/-- A command takes as many values as it has parameters. -/
theorem takes_command (c : Command Term) : c.fillFrom.Takes c.parameterCount := by
  cases c with
  | insert name names rows => exact (takes_fillRows rows).map _
  | insertOrIgnore name names rows => exact (takes_fillRows rows).map _
  | delete name condition => exact (takes_condition condition).map _
  | select names name condition order => exact (takes_condition condition).map _
  | best names name condition ranking order => exact (takes_condition condition).map _
  | _ => exact takes_pure _

end Filling

theorem Command.length_of_fill {c : Command Term} {values : List Value} {filled : Command Value}
    (h : c.fill values = some filled) : values.length = c.parameterCount := by
  unfold Command.fill at h
  split at h
  next hf => exact Filling.takes_command c _ _ _ hf
  next => cases h

/-- A command without the terms that stand for its values. -/
def Command.bare {τ : Type} : Command τ → Command Unit
  | createTable layout => createTable layout
  | createNewTable layout => createNewTable layout
  | createIndex name table columns => createIndex name table columns
  | dropTable name => dropTable name
  | dropIndex name => dropIndex name
  | insert table columns _ => insert table columns []
  | insertOrIgnore table columns _ => insertOrIgnore table columns []
  | delete table _ => delete table .always
  | select columns table _ order => select columns table .always order
  | greatest column table => greatest column table
  | best columns table _ ranking order => best columns table .always ranking order
  | other text => other text

theorem Command.bare_fillFrom {c : Command Term} {values rest : List Value}
    {filled : Command Value} (h : c.fillFrom values = some (filled, rest)) :
    filled.bare = c.bare := by
  cases c <;> simp only [Command.fillFrom, bind, StateT.bind, Option.bind_eq_some_iff] at h
  all_goals first
    | cases h; rfl
    | obtain ⟨⟨_, _⟩, _, h⟩ := h; cases h; rfl

/-- Filling in values does not change what a command is about. -/
theorem Command.bare_fill {c : Command Term} {values : List Value} {filled : Command Value}
    (h : c.fill values = some filled) : filled.bare = c.bare := by
  unfold Command.fill at h
  split at h
  next hf => cases h; exact bare_fillFrom hf
  next => cases h

theorem Statement.fill_of_filled {s : Statement} {command : Command Value}
    (h : s.filled = .ok command) : ∃ values, s.command.fill values = some command ∧
      (s.operation ≠ .execute → values = s.values.map Scalar.toValue) := by
  simp only [Statement.filled] at h
  split at h
  · cases h
  · split at h
    next hc =>
      cases h
      exact ⟨_, hc, fun ho => if_neg ho⟩
    next => cases h

/-! ## Rows of a result -/

theorem mapM_eq_ok {ε α β : Type} {f : α → Except ε β} {g : α → β} {as : List α}
    (h : ∀ a ∈ as, f a = .ok (g a)) : as.mapM f = .ok (as.map g) := by
  induction as with
  | nil => rfl
  | cons a as ih =>
    obtain ⟨ha, h⟩ := List.forall_mem_cons.1 h
    rw [List.mapM_cons, ha, ih h]
    rfl

theorem mapM_typed {ε : Type} {noColumn : Nat → ε} {types : List ColumnType}
    {records : List Record} (h : ∀ r ∈ records, types.length ≤ r.length) :
    records.mapM (Statement.typed noColumn types) =
      .ok (records.map (List.zipWith ColumnType.cell types)) :=
  mapM_eq_ok fun r hr => if_pos (h r hr)

theorem Statement.carryOut_of_filled {s : Statement} {filled : Command Value} {db : Database}
    (hf : s.filled = .ok filled) : s.carryOut db = db.perform filled := by
  rw [carryOut, hf]
  rfl

/-- A query that is carried out leaves the database alone. -/
theorem Statement.perform_step {command : Command Term} {values : List Scalar}
    {types : List ColumnType} {filled : Command Value} {db : Database} {records : List Record}
    (hf : (Statement.step command values types).filled = .ok filled)
    (hp : db.perform filled = .ok (db, records)) (hw : ∀ r ∈ records, types.length ≤ r.length) :
    (Statement.step command values types).perform db =
      .ok (db, some (records.map (List.zipWith ColumnType.cell types))) := by
  unfold Statement.perform
  rw [Statement.carryOut_of_filled hf]
  simp only [bind, Except.bind, hp]
  simp only [Statement.step, mapM_typed hw]
  rfl

theorem Statement.perform_run {command : Command Term} {values : List Scalar}
    {filled : Command Value} {db after : Database}
    (hf : (Statement.run command values).filled = .ok filled)
    (hp : db.perform filled = .ok (after, [])) :
    (Statement.run command values).perform db = .ok (after, none) := by
  unfold Statement.perform
  rw [Statement.carryOut_of_filled hf]
  simp only [bind, Except.bind, hp]
  rfl

theorem Statement.perform_execute {command : Command Term} {filled : Command Value}
    {db after : Database} {records : List Record}
    (hf : (Statement.execute command).filled = .ok filled)
    (hp : db.perform filled = .ok (after, records)) :
    (Statement.execute command).perform db = .ok (after, none) := by
  unfold Statement.perform
  rw [Statement.carryOut_of_filled hf]
  simp only [bind, Except.bind, hp]
  rfl

/-- What is carried out without values is its command. -/
theorem Statement.of_perform_execute {command : Command Term} {filled : Command Value}
    {db after : Database} {result : Option (List Row)}
    (hf : (Statement.execute command).filled = .ok filled)
    (h : (Statement.execute command).perform db = .ok (after, result)) :
    result = none ∧ ∃ records, db.perform filled = .ok (after, records) := by
  obtain ⟨⟨mid, records⟩, hp, h⟩ := bind_eq_ok.1 h
  rw [carryOut_of_filled hf] at hp
  cases h
  exact ⟨rfl, records, hp⟩

theorem Statement.perform_error {s : Statement} {filled : Command Value} {db : Database}
    {refusal : Refusal} (hf : s.filled = .ok filled) (hp : db.perform filled = .error refusal) :
    s.perform db = .error refusal := by
  unfold Statement.perform
  rw [Statement.carryOut_of_filled hf]
  simp only [bind, Except.bind, hp]

/-- A statement that is carried out has a command that is. -/
theorem Statement.carryOut_of_perform {s : Statement} {db after : Database}
    {result : Option (List Row)} (h : s.perform db = .ok (after, result)) :
    ∃ records, s.carryOut db = .ok (after, records) := by
  obtain ⟨⟨mid, records⟩, hp, h⟩ := bind_eq_ok.1 h
  refine ⟨records, hp.trans ?_⟩
  cases ho : s.operation with
  | execute =>
    simp only [ho] at h
    cases h
    rfl
  | run =>
    simp only [ho] at h
    split at h
    · cases h
      rfl
    · cases h
  | step =>
    simp only [ho] at h
    obtain ⟨rows, -, h⟩ := bind_eq_ok.1 h
    cases h
    rfl

theorem Database.performAll_cons {db after : Database} {s : Statement} {result : Option (List Row)}
    (h : s.perform db = .ok (after, result)) (rows : List Row) (rest : List Statement) :
    db.performAll rows (s :: rest) = after.performAll (result.getD rows) rest := by
  simp only [Database.performAll, h, bind, Except.bind]

theorem Database.performAll_cons_error {db : Database} {s : Statement} {refusal : Refusal}
    (h : s.perform db = .error refusal) (rows : List Row) (rest : List Statement) :
    db.performAll rows (s :: rest) = .error refusal := by
  simp only [Database.performAll, h, bind, Except.bind]

theorem Database.performAll_append_of_ok {db mid : Database} {rows rows' : List Row}
    {ss : List Statement} (h : db.performAll rows ss = .ok (mid, rows')) (ts : List Statement) :
    db.performAll rows (ss ++ ts) = mid.performAll rows' ts := by
  rw [performAll_append, h]
  rfl

theorem Database.transact_singleton {db after : Database} {s : Statement}
    {rows : Option (List Row)} (h : s.perform db = .ok (after, rows)) :
    db.transact [s] = (.ok (rows.getD []), after) := by
  rw [Database.transact_eq, Database.performAll_cons h]
  rfl

end AdLedger.Sql
