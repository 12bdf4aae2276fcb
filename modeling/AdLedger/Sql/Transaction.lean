import AdLedger.Sql.Database

/-!
# Transactions

Statements that take effect together or not at all. A statement is a command with the values of its
parameters; what its rows mean is fixed by the declared types of its columns. The result of a
transaction is what its last query returned.

A transaction goes through a connection, which may refuse to begin it, may refuse any statement of
it, whatever its text, and may refuse to make lasting what all of them have done. If it refuses one
of these, the transaction is given up. A `Database` has a connection of its own, which refuses
statements only.
-/

namespace AdLedger.Sql

/-- How a statement is carried out. -/
inductive Operation where
  /-- Without values, and for its effect alone. -/
  | execute
  /-- With values, and without rows. -/
  | run
  /-- With values, for the rows it returns. -/
  | step
  deriving DecidableEq

structure Statement where
  operation : Operation
  command : Command Term
  values : List Scalar
  columns : List ColumnType

abbrev Row := List Cell

namespace Statement

def execute (command : Command Term) : Statement := ⟨.execute, command, [], []⟩

def run (command : Command Term) (values : List Scalar) : Statement := ⟨.run, command, values, []⟩

def step (command : Command Term) (values : List Scalar) (columns : List ColumnType) : Statement :=
  ⟨.step, command, values, columns⟩

/-- The greatest number of parameters a command may have. -/
def mostParameters : Nat := 32766

/-- The command with its values filled in; a parameter of a command without values is null. -/
def filled (s : Statement) : Except Refusal (Command Value) :=
  let count := s.command.parameterCount
  let values :=
    if s.operation = .execute then List.replicate count Value.null
    else s.values.map Scalar.toValue
  if mostParameters < count then .error (.tooManyParameters count)
  else match s.command.fill values with
    | some command => .ok command
    | none => .error (.wrongParameterCount count values.length)

/-- A stored row with the declared types. A row of a result has a value for each of them; `noColumn`
gives the reason for which it has none for the column of a number. -/
def typed {ε : Type} (noColumn : Nat → ε) (columns : List ColumnType) (r : Record) :
    Except ε Row :=
  if columns.length ≤ r.length then .ok (List.zipWith ColumnType.cell columns r)
  else .error (noColumn r.length)

end Statement

/-! ## Connections -/

/-- What a query returns: the rows that could be had, and whether that were all of them. -/
structure Answer (ε : Type) where
  records : List Record
  ended : Except ε Unit

/-- The rows of an answer with the declared types. -/
def Answer.rows {ε : Type} (noColumn : Nat → ε) (columns : List ColumnType) (a : Answer ε) :
    Except ε (List Row) := do
  let rows ← a.records.mapM (Statement.typed noColumn columns)
  a.ended
  return rows

/-- What is asked of a database by transactions. The database is in a state `σ`, and in a state `τ`
while a transaction changes it; `ε` are reasons. What is refused may leave something behind in the
transaction all the same. -/
structure Connection (ε σ τ : Type) where
  message : ε → String
  /-- Begins a transaction that may change the database at once. -/
  start : σ → Except ε τ
  /-- Carries out a text, which may be one of several commands, without values. -/
  execute : Command Term → τ → Except ε Unit × τ
  /-- Carries out a command with values that returns no rows. -/
  run : Command Term → List Scalar → τ → Except ε Unit × τ
  query : Command Term → List Scalar → τ → Answer ε × τ
  noColumn : Nat → ε
  /-- Makes lasting what a transaction has done. -/
  commit : τ → Except ε Unit
  /-- The database as a transaction has changed it so far. -/
  now : τ → σ
  /-- The database after a transaction is given up. -/
  rollback : τ → σ

namespace Connection

variable {ε σ τ : Type}

/-- Carries out one statement, with the rows if it is a query. -/
def perform (c : Connection ε σ τ) (s : Statement) (t : τ) : Except ε (Option (List Row)) × τ :=
  match s.operation with
  | .execute =>
    let (done, after) := c.execute s.command t
    (done.map fun _ => none, after)
  | .run =>
    let (done, after) := c.run s.command s.values t
    (done.map fun _ => none, after)
  | .step =>
    let (answer, after) := c.query s.command s.values t
    ((answer.rows c.noColumn s.columns).map some, after)

/-- Carries out statements in their order up to one that is refused, starting from the rows returned
so far. -/
def performAll (c : Connection ε σ τ) (rows : List Row) :
    List Statement → τ → Except ε (List Row) × τ
  | [], t => (.ok rows, t)
  | s :: rest, t =>
    match c.perform s t with
    | (.ok result, after) => c.performAll (result.getD rows) rest after
    | (.error reason, after) => (.error reason, after)

/-- Carries out statements together: the rows of the last query and the database as it is then, or
the reason why the transaction was given up. -/
def transact (c : Connection ε σ τ) (statements : List Statement) (s : σ) :
    Except ε (List Row) × σ :=
  match c.start s with
  | .error reason => (.error reason, s)
  | .ok t =>
    match c.performAll [] statements t with
    | (.error reason, after) => (.error reason, c.rollback after)
    | (.ok rows, after) =>
      match c.commit after with
      | .error reason => (.error reason, c.rollback after)
      | .ok () => (.ok rows, c.now after)

end Connection

/-! ## Databases -/

/-- A transaction in progress: the database it has begun with, and the one it has made of it. -/
structure Pending where
  before : Database
  now : Database

/-- Goes on with what work makes of the database, unless it is refused. -/
def Pending.attempt {α : Type} (t : Pending) (work : Database → Except Refusal (Database × α)) :
    Except Refusal α × Pending :=
  match work t.now with
  | .ok (after, a) => (.ok a, { t with now := after })
  | .error refusal => (.error refusal, t)

def Refusal.noColumn (i : Nat) : Refusal := .noSuchColumn (Text.natural i)

namespace Statement

/-- Carries out the command of a statement: the database after it, and the rows that it returns. -/
def carryOut (s : Statement) (db : Database) : Except Refusal (Database × List Record) := do
  db.perform (← s.filled)

/-- Carries out one statement: the database after it, and the rows if it is a query. -/
def perform (s : Statement) (db : Database) : Except Refusal (Database × Option (List Row)) := do
  let (after, records) ← s.carryOut db
  match s.operation with
  | .execute => return (after, none)
  | .run => if records.isEmpty then return (after, none) else throw .rowsReturned
  | .step => return (after, some (← records.mapM (typed .noColumn s.columns)))

end Statement

namespace Database

/-- The connection of a database that nothing else uses. It has the commands of the ledger, and no
rules that wait for the end of a transaction. -/
def connection : Connection Refusal Database Pending where
  message := Refusal.message
  start db := .ok ⟨db, db⟩
  execute command t := t.attempt fun db => do
    let (after, _) ← (Statement.execute command).carryOut db
    return (after, ())
  run command values t := t.attempt fun db => do
    let (after, records) ← (Statement.run command values).carryOut db
    if records.isEmpty then return (after, ()) else throw .rowsReturned
  query command values t :=
    match t.attempt (Statement.step command values []).carryOut with
    | (.ok records, after) => (⟨records, .ok ()⟩, after)
    | (.error refusal, after) => (⟨[], .error refusal⟩, after)
  noColumn := .noColumn
  commit _ := .ok ()
  now := Pending.now
  rollback := Pending.before

/-- Carries out statements together through the connection of the database itself. -/
def transact (db : Database) (statements : List Statement) :
    Except Refusal (List Row) × Database := connection.transact statements db

/-! ### Statements one after the other -/

/-- Carries out statements in their order, starting from the rows returned so far. -/
def performAll (db : Database) (rows : List Row) :
    List Statement → Except Refusal (Database × List Row)
  | [] => .ok (db, rows)
  | s :: rest => do
    let (after, result) ← s.perform db
    after.performAll (result.getD rows) rest

/-- A statement ends through the connection of a database as it does on the database. One that is
refused leaves the beginning of the transaction where it was. -/
inductive Ends (s : Statement) (t : Pending) : Prop where
  | done {after : Database} {result : Option (List Row)}
      (perform_eq : s.perform t.now = .ok (after, result))
      (connection_eq : connection.perform s t = (.ok result, { t with now := after }))
  | refused {refusal : Refusal} {after : Pending} (perform_eq : s.perform t.now = .error refusal)
      (connection_eq : connection.perform s t = (.error refusal, after))
      (before_eq : after.before = t.before)

section Operations

variable (command : Command Term) (values : List Scalar) (columns : List ColumnType) (t : Pending)

theorem ends_execute : Ends ⟨.execute, command, values, columns⟩ t := by
  have hcarry : (⟨.execute, command, values, columns⟩ : Statement).carryOut =
      (Statement.execute command).carryOut := rfl
  rcases h : (Statement.execute command).carryOut t.now with refusal | ⟨after, records⟩
  · exact .refused (by rw [Statement.perform, hcarry, h]; rfl)
      (by simp only [Connection.perform, connection, Pending.attempt, h]; rfl) rfl
  · exact .done (by rw [Statement.perform, hcarry, h]; rfl)
      (by simp only [Connection.perform, connection, Pending.attempt, h]; rfl)

theorem ends_run : Ends ⟨.run, command, values, columns⟩ t := by
  have hcarry : (⟨.run, command, values, columns⟩ : Statement).carryOut =
      (Statement.run command values).carryOut := rfl
  rcases h : (Statement.run command values).carryOut t.now with refusal | ⟨after, _ | ⟨r, records⟩⟩
  · exact .refused (by rw [Statement.perform, hcarry, h]; rfl)
      (by simp only [Connection.perform, connection, Pending.attempt, h]; rfl) rfl
  · exact .done (by rw [Statement.perform, hcarry, h]; rfl)
      (by simp only [Connection.perform, connection, Pending.attempt, h]; rfl)
  · exact .refused (by rw [Statement.perform, hcarry, h]; rfl)
      (by simp only [Connection.perform, connection, Pending.attempt, h]; rfl) rfl

theorem ends_step : Ends ⟨.step, command, values, columns⟩ t := by
  have hcarry : (⟨.step, command, values, columns⟩ : Statement).carryOut =
      (Statement.step command values []).carryOut := rfl
  rcases h : (Statement.step command values []).carryOut t.now with refusal | ⟨after, records⟩
  · exact .refused (by rw [Statement.perform, hcarry, h]; rfl)
      (by simp only [Connection.perform, connection, Pending.attempt, h]; rfl) rfl
  · -- The rows are taken with their types only after the query has had its effect.
    have hconnection : connection.perform ⟨.step, command, values, columns⟩ t =
        (((records.mapM (Statement.typed .noColumn columns)).bind .ok).map some,
          { t with now := after }) := by
      simp only [Connection.perform, connection, Pending.attempt, h]
      rfl
    have hperform : (⟨.step, command, values, columns⟩ : Statement).perform t.now =
        (records.mapM (Statement.typed .noColumn columns)).map fun rows => (after, some rows) := by
      rw [Statement.perform, hcarry, h]
      rfl
    cases hrows : records.mapM (Statement.typed Refusal.noColumn columns) with
    | error refusal =>
      rw [hrows] at hconnection hperform
      exact .refused hperform hconnection rfl
    | ok rows =>
      rw [hrows] at hconnection hperform
      exact .done hperform hconnection

end Operations

theorem ends (s : Statement) (t : Pending) : Ends s t := by
  obtain ⟨operation, command, values, columns⟩ := s
  cases operation with
  | execute => exact ends_execute command values columns t
  | run => exact ends_run command values columns t
  | step => exact ends_step command values columns t

theorem connection_perform (s : Statement) (t : Pending) :
    (∀ after result, s.perform t.now = .ok (after, result) →
      connection.perform s t = (.ok result, { t with now := after })) ∧
    ∀ refusal, s.perform t.now = .error refusal →
      ∃ after, connection.perform s t = (.error refusal, after) ∧ after.before = t.before := by
  obtain ⟨hs, hc⟩ | ⟨hs, hc, hbefore⟩ := ends s t
  · refine ⟨fun after result h => ?_, fun refusal h => (nomatch hs.symm.trans h)⟩
    cases hs.symm.trans h
    exact hc
  · refine ⟨fun after result h => (nomatch hs.symm.trans h), fun refusal h => ?_⟩
    cases hs.symm.trans h
    exact ⟨_, hc, hbefore⟩

theorem connection_performAll (statements : List Statement) (t : Pending) (rows : List Row) :
    (∀ after result, t.now.performAll rows statements = .ok (after, result) →
      connection.performAll rows statements t = (.ok result, { t with now := after })) ∧
    ∀ refusal, t.now.performAll rows statements = .error refusal →
      ∃ after, connection.performAll rows statements t = (.error refusal, after) ∧
        after.before = t.before := by
  induction statements generalizing t rows with
  | nil => exact ⟨fun after result h => by cases h; rfl, nofun⟩
  | cons s rest ih =>
    obtain ⟨hok, herror⟩ := connection_perform s t
    simp only [performAll, Connection.performAll]
    cases hp : s.perform t.now with
    | error e =>
      obtain ⟨after, hrun, hbefore⟩ := herror e hp
      rw [hrun]
      exact ⟨nofun, fun refusal h => ⟨after, by cases h; rfl, hbefore⟩⟩
    | ok done =>
      rw [hok done.1 done.2 hp]
      exact ih { t with now := done.1 } (done.2.getD rows)

/-- A transaction ends with the rows of the last query and the database after all statements, or,
if one is refused, with the reason and the database as it was. -/
theorem transact_eq (db : Database) (statements : List Statement) :
    db.transact statements =
      match db.performAll [] statements with
      | .ok (after, rows) => (.ok rows, after)
      | .error refusal => (.error refusal, db) := by
  obtain ⟨hok, herror⟩ := connection_performAll statements ⟨db, db⟩ []
  have hstart : connection.start db = .ok ⟨db, db⟩ := rfl
  simp only [transact, Connection.transact, hstart]
  cases hp : db.performAll [] statements with
  | ok done => rw [hok done.1 done.2 hp]; rfl
  | error refusal =>
    obtain ⟨after, hrun, hbefore⟩ := herror refusal hp
    rw [hrun]
    exact congrArg (Except.error refusal, ·) hbefore

/-- A refused transaction has no effect. -/
theorem transact_of_error {db : Database} {statements : List Statement} {refusal : Refusal}
    (h : (db.transact statements).1 = .error refusal) : (db.transact statements).2 = db := by
  rw [transact_eq] at h ⊢
  split at h
  · cases h
  · simp_all

/-- Statements are carried out one after the other. -/
theorem performAll_append (db : Database) (rows : List Row) (ss ts : List Statement) :
    db.performAll rows (ss ++ ts) =
      (db.performAll rows ss).bind fun (after, rows) => after.performAll rows ts := by
  induction ss generalizing db rows with
  | nil => rfl
  | cons s rest ih =>
    simp only [List.cons_append, performAll]
    cases h : s.perform db with
    | error e => rfl
    | ok r => exact ih r.1 (r.2.getD rows)

end Database
end AdLedger.Sql
