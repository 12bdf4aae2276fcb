import AdLedger.Proofs.Store.Atomicity
import AdLedger.Proofs.Store.Coordination

/-!
# Attempts through any connection

Bringing tables up to date through a connection that may refuse anything, to something that is only
seen as a database (`Connection.Follows`). Nothing is known of the texts that the hooks of the tables
give but that they neither end the transaction nor touch the table of versions (`Trial.Proper`).

An attempt ends in one of four ways (`Trial.Ends`). It is not told the version, and calls no hook; it
is told that there is nothing to do; it is refused what is to be done; or all that the hooks give
takes effect together with the records of the versions reached. In every way it leaves something
whose versions can be read again, so that the same holds of each of any number of attempts
(`Trial.coordinates_afterAll`).
-/

namespace AdLedger.Store

open Sql
open Time (Instant)

/-! ## Connections that know of versions -/

/-- The statements by which versions are asked for and recorded. -/
def IsVersioning (s : Statement) : Prop :=
  s ∈ askVersion ∨ ∃ now version, s = recordVersion now version

theorem IsVersioning.plain {s : Statement} (h : IsVersioning s) : s.command.Plain := by
  obtain h | ⟨now, version, rfl⟩ := h
  · exact plain_askVersion h
  · exact plain_recordVersion now version

/-- What is relied on of a connection to something that is seen as a database: where it carries out
a statement about versions, the database does so too. -/
structure Follows {ε σ τ : Type} (c : Connection ε σ τ) (view : σ → Database) : Prop where
  lawful : c.Lawful
  does : ∀ s, IsVersioning s → ∀ t u result, s.Does c t u result →
    s.perform (view (c.now t)) = .ok (view (c.now u), result)

section Connections

variable {ε σ τ : Type} {c : Connection ε σ τ} {view : σ → Database} {statements : List Statement}
  {t u : τ} {results : List (List Row)}

theorem Follows.performAll (hc : Follows c view) (hs : ∀ s ∈ statements, IsVersioning s)
    (h : Runs c t statements u results) (rows : List Row) :
    (view (c.now t)).performAll rows statements =
      .ok (view (c.now u), results.getLast?.getD rows) := by
  induction h generalizing rows with
  | nil t => rfl
  | @cons t mid u s rest result results hd _ ih =>
    obtain ⟨hs, hrest⟩ := List.forall_mem_cons.1 hs
    refine (Database.performAll_cons (hc.does s hs t mid result hd) _ _).trans ?_
    refine (ih hrest (result.getD rows)).trans ?_
    cases result <;> cases results <;> simp [List.getLast?_cons]

/-- Statements that each leave the table of versions alone do so one after the other. -/
theorem table?_of_runs (hs : ∀ s ∈ statements, ∀ t u result, s.Does c t u result →
      (view (c.now u)).table? versionTableName = (view (c.now t)).table? versionTableName)
    (h : Runs c t statements u results) :
    (view (c.now u)).table? versionTableName = (view (c.now t)).table? versionTableName := by
  induction h with
  | nil t => rfl
  | @cons t mid u s rest result results hd _ ih =>
    obtain ⟨hs, hrest⟩ := List.forall_mem_cons.1 hs
    exact (ih hrest).trans (hs t mid result hd)

end Connections

/-- A database that carries out the question for the version answers with the greatest one. -/
theorem highest_of_performAll {db after : Database} {rows : List Row} (h : Versioned db)
    (hp : db.performAll [] askVersion = .ok (after, rows)) :
    SchemaVersion.ofInt (intAt (rows.head?.getD []) 0).toInt = ⟨highest db⟩ ∧
      after = withVersions db := by
  have hon : (storedVersion : Work Database SchemaVersion).on db =
      (.ok (.ofInt (intAt (rows.head?.getD []) 0).toInt), after) := by
    rw [storedVersion, Work.on_bind, transact_on, Database.transact_eq, hp]
    rfl
  by_cases hf : NameFree db
  · obtain ⟨hversion, hafter⟩ := Prod.mk.inj (hon.symm.trans (storedVersion_on h hf))
    exact ⟨Except.ok.inj hversion, hafter⟩
  · simp only [NameFree, not_or, Option.not_isSome_iff_eq_none, Option.isNone_iff_eq_none] at hf
    have herror := storedVersion_on_of_index hf.1 (Option.isSome_iff_ne_none.2 hf.2)
    cases (Prod.mk.inj (hon.symm.trans herror)).1

/-! ## Attempts -/

/-- An attempt to bring tables up to date through a connection. -/
structure Trial (ε σ τ : Type) extends Attempt where
  connection : Connection ε σ τ

namespace Trial

variable {ε σ τ : Type}

/-- The answer to the question for the version in effect. -/
def asked (a : Trial ε σ τ) (s : σ) : Except Failure SchemaVersion × σ :=
  (@storedVersion σ (.ofConnection a.connection)).on s

/-- The version that an attempt gives, or its failure, and the hooks that it has called. -/
def outcome (a : Trial ε σ τ) (s : σ) : Except Failure SchemaVersion × Coordinator σ :=
  (@bringUp σ (.ofConnection a.connection) a.tables a.now).on ⟨s, []⟩

/-- What is to be done from a version: what the hooks give, and records of the versions after it. -/
def changes (a : Trial ε σ τ) (version : Nat) : List Statement :=
  a.work version ++ (Attempt.versionsFrom version).map (recordVersion a.now)

/-- The hooks give texts that neither end the transaction nor touch the table of versions. -/
structure Proper (a : Trial ε σ τ) (view : σ → Database) : Prop where
  follows : Follows a.connection view
  within : ∀ table ∈ a.tables, ∀ step, ∀ s ∈ table.statements step, a.connection.Within s
  spares : ∀ table ∈ a.tables, ∀ step, ∀ s ∈ table.statements step, ∀ t u result,
    s.Does a.connection t u result → (view (a.connection.now u)).table? versionTableName =
      (view (a.connection.now t)).table? versionTableName

/-- What an attempt does to something that is seen as a database. -/
structure Coordinates (a : Trial ε σ τ) (view : σ → Database) (s : σ) : Prop where
  /-- It is told the greatest version recorded, and a table of versions is there then; or it is told
  nothing, and nothing has changed. -/
  asked : (∃ failure, a.asked s = (.error failure, s)) ∨
    ∃ told, a.asked s = (.ok ⟨highest (view s)⟩, told) ∧ view told = withVersions (view s)
  /-- No hook is called if it is told nothing. -/
  untold : ∀ failure, a.asked s = (.error failure, s) → a.outcome s = (.error failure, ⟨s, []⟩)
  /-- No hook is called and nothing changes if the greatest version is the current one or a later
  one. -/
  current : ∀ version told, a.asked s = (.ok version, told) →
    SchemaVersion.current.number ≤ highest (view s) →
      a.outcome s = (.ok ⟨highest (view s)⟩, ⟨told, []⟩) ∧ view told = view s
  /-- Otherwise the hooks from the greatest version are called, each table in its turn. -/
  hooks : ∀ version told, a.asked s = (.ok version, told) →
    highest (view s) < SchemaVersion.current.number →
      (a.outcome s).2.called = a.hooksFrom (highest (view s))
  /-- If all that they give is carried out, together with the records of the versions reached, and
  may last, then it takes effect, and the current version is given. -/
  committed : ∀ version told t u results, a.asked s = (.ok version, told) →
    highest (view s) < SchemaVersion.current.number → a.connection.start told = .ok t →
    Runs a.connection t (a.changes (highest (view s))) u results →
    a.connection.commit u = .ok () →
      (a.outcome s).1 = .ok .current ∧ (a.outcome s).2.engine = a.connection.now u ∧
        recordedVersions (view (a.connection.now u)) =
          recordedVersions (view s) ++ Attempt.versionsFrom (highest (view s))
  /-- If some of it is refused, then nothing takes effect. -/
  refused : ∀ version told t, a.asked s = (.ok version, told) →
    highest (view s) < SchemaVersion.current.number → a.connection.start told = .ok t →
    Stops a.connection t (a.changes (highest (view s))) →
      ∃ failure, (a.outcome s).1 = .error failure ∧ (a.outcome s).2.engine = told
  /-- There is no other way to give the current version than to have done all of it. -/
  done : ∀ version told, a.asked s = (.ok version, told) →
    highest (view s) < SchemaVersion.current.number →
    (∃ failure, (a.outcome s).1 = .error failure ∧ (a.outcome s).2.engine = told) ∨
      ∃ t u results, a.connection.start told = .ok t ∧
        Runs a.connection t (a.changes (highest (view s))) u results ∧
        a.connection.commit u = .ok () ∧ (a.outcome s).1 = .ok .current
  /-- The version given is the greatest one recorded afterwards, and no other one is told then,
  whichever connection is asked. -/
  inEffect : ∀ version, (a.outcome s).1 = .ok version →
    version.number = highest (view (a.outcome s).2.engine) ∧
      ∀ b : Trial ε σ τ, Follows b.connection view → ∀ other after,
        b.asked (a.outcome s).2.engine = (.ok other, after) → other = version
  /-- After a failure everything is as before, but for a table of versions. -/
  unchanged : ∀ failure, (a.outcome s).1 = .error failure →
    (view (a.outcome s).2.engine = view s ∨ view (a.outcome s).2.engine = withVersions (view s)) ∧
      recordedVersions (view (a.outcome s).2.engine) = recordedVersions (view s)

variable {a : Trial ε σ τ} {view : σ → Database} {s told : σ} {version : SchemaVersion}

/-! ### The version told -/

theorem within_askVersion (ha : Follows a.connection view) :
    ∀ s ∈ askVersion, a.connection.Within s :=
  fun s hs => ha.lawful.within s (IsVersioning.plain (.inl hs))

theorem asked_eq_error (ha : Follows a.connection view) {failure : Failure}
    (h : a.asked s = (.error failure, told)) : told = s :=
  (restores_through ha.lawful (within_askVersion ha)).map _ s failure told h

theorem asked_eq_ok (ha : Follows a.connection view) (hs : Versioned (view s))
    (h : a.asked s = (.ok version, told)) :
    version = ⟨highest (view s)⟩ ∧ view told = withVersions (view s) := by
  obtain ⟨rows, mid, ht, hpure⟩ := Work.on_bind_eq_ok h
  cases hpure
  have hthrough : (through a.connection askVersion).on s = (.ok rows, told) := ht
  obtain ⟨t, u, results, hstart, hruns, -, hon⟩ | ⟨failure, hon⟩ :=
    (atomic ha.lawful (within_askVersion ha) s).cases
  · cases hthrough.symm.trans hon
    have hperform := ha.performAll (fun s hs => .inl hs) hruns []
    rw [ha.lawful.now_start s t hstart] at hperform
    exact highest_of_performAll hs hperform
  · cases hthrough.symm.trans hon

/-! ### One attempt -/

theorem outcome_of_untold {failure : Failure} (h : a.asked s = (.error failure, told)) :
    a.outcome s = (.error failure, ⟨told, []⟩) :=
  @bringUp_of_error σ (.ofConnection a.connection) _ _ _ _ _ h

theorem outcome_of_current (h : a.asked s = (.ok version, told))
    (hc : version.isCurrent = true) : a.outcome s = (.ok version, ⟨told, []⟩) :=
  @bringUp_of_isCurrent σ (.ofConnection a.connection) _ _ _ _ _ h hc

theorem outcome_of_older {n : Nat} (h : a.asked s = (.ok ⟨n⟩, told))
    (hn : n < SchemaVersion.current.number) :
    a.outcome s =
      (((through a.connection (a.changes n)).on told).1.map fun _ => .current,
        ⟨((through a.connection (a.changes n)).on told).2, a.hooksFrom n⟩) := by
  have hc : SchemaVersion.isCurrent ⟨n⟩ = false := by simpa [SchemaVersion.isCurrent] using hn
  have ho := @bringUp_of_not_isCurrent σ (.ofConnection a.connection) a.tables a.now _ _ _ h hc
  rw [Attempt.upgrade_eq hn, Attempt.calls_of_lt hn] at ho
  exact ho

/-- What the versions are after an attempt whose statements have all been carried out. -/
theorem versions_of_runs (ha : a.Proper view) (hs : Versioned (view s))
    (hn : highest (view s) < SchemaVersion.current.number)
    (htold : view told = withVersions (view s)) {t u : τ} {results : List (List Row)}
    (hstart : a.connection.start told = .ok t)
    (hruns : Runs a.connection t (a.changes (highest (view s))) u results) :
    recordedVersions (view (a.connection.now u)) =
        recordedVersions (view s) ++ Attempt.versionsFrom (highest (view s)) ∧
      Versioned (view (a.connection.now u)) ∧
      highest (view (a.connection.now u)) = SchemaVersion.current.number := by
  obtain ⟨mid, first, more, hwork, hrecords⟩ := exists_of_runs_append hruns
  obtain ⟨rows, ht, hrows, hold⟩ := Attempt.exists_table?_withVersions hs
  have hmid : (view (a.connection.now mid)).table? versionTableName = some ⟨versionLayout, rows⟩ := by
    rw [table?_of_runs (fun s hs => ?_) hwork, ha.follows.lawful.now_start told t hstart, htold, ht]
    obtain ⟨table, htable, step, hs⟩ := Attempt.exists_of_mem_work hs
    exact ha.spares table htable step s hs
  have hperform := ha.follows.performAll (fun s hs => ?_) hrecords []
  · rw [Attempt.performAll_committed hn hmid hold] at hperform
    have hview := (Prod.mk.inj (Except.ok.inj hperform)).1
    rw [← hview]
    refine ⟨?_, Attempt.versioned_recorded hmid ?_, Attempt.highest_recorded hn hmid ?_⟩
    · rw [recordedVersions, Attempt.table?_recorded hmid]
      simp only [List.map_append, hrows, Attempt.versionOf_versionRecords]
    · exact fun r hr => (hold r hr).imp fun v hv => ⟨hv.1, hv.2.1⟩
    · rw [hrows]
      rfl
  · obtain ⟨v, -, rfl⟩ := List.mem_map.1 hs
    exact .inr ⟨_, _, rfl⟩

/-- The ways in which an attempt ends. -/
inductive Ends (a : Trial ε σ τ) (view : σ → Database) (s : σ) :
    Except Failure SchemaVersion × Coordinator σ → Prop where
  | untold {failure : Failure} (hasked : a.asked s = (.error failure, s)) :
      Ends a view s (.error failure, ⟨s, []⟩)
  | current {told : σ} (hn : SchemaVersion.current.number ≤ highest (view s))
      (htold : view told = view s) : Ends a view s (.ok ⟨highest (view s)⟩, ⟨told, []⟩)
  | refused {told : σ} {failure : Failure} (htold : view told = withVersions (view s)) :
      Ends a view s (.error failure, ⟨told, a.hooksFrom (highest (view s))⟩)
  | committed {t u : τ} {told : σ} {results : List (List Row)}
      (htold : view told = withVersions (view s)) (hstart : a.connection.start told = .ok t)
      (hruns : Runs a.connection t (a.changes (highest (view s))) u results)
      (hcommit : a.connection.commit u = .ok ())
      (hn : highest (view s) < SchemaVersion.current.number) :
      Ends a view s
        (.ok .current, ⟨a.connection.now u, a.hooksFrom (highest (view s))⟩)

theorem within_changes (ha : a.Proper view) {n : Nat} :
    ∀ s ∈ a.changes n, a.connection.Within s := by
  intro s hs
  obtain hs | hs := List.mem_append.1 hs
  · obtain ⟨table, htable, step, hs⟩ := Attempt.exists_of_mem_work hs
    exact ha.within table htable step s hs
  · obtain ⟨v, -, rfl⟩ := List.mem_map.1 hs
    exact ha.follows.lawful.within _ (IsVersioning.plain (.inr ⟨_, _, rfl⟩))

theorem withVersions_of_current {db : Database} (h : SchemaVersion.current.number ≤ highest db) :
    withVersions db = db :=
  Attempt.withVersions_eq (Attempt.isSome_of_highest_pos (Nat.lt_of_lt_of_le (by decide) h))

theorem ends (ha : a.Proper view) (hs : Versioned (view s)) : a.Ends view s (a.outcome s) := by
  rcases hasked : a.asked s with ⟨failure | version, told⟩
  · cases asked_eq_error ha.follows hasked
    rw [outcome_of_untold hasked]
    exact .untold hasked
  · obtain ⟨rfl, htold⟩ := asked_eq_ok ha.follows hs hasked
    obtain hn | hn := Nat.lt_or_ge (highest (view s)) SchemaVersion.current.number
    · rw [outcome_of_older hasked hn]
      obtain ⟨t, u, results, hstart, hruns, hcommit, hon⟩ | ⟨failure, hon⟩ :=
        (atomic ha.follows.lawful (within_changes ha) told).cases
      · rw [hon]
        exact .committed htold hstart hruns hcommit hn
      · rw [hon]
        exact .refused htold
    · rw [outcome_of_current hasked (decide_eq_true hn)]
      exact .current hn (htold.trans (withVersions_of_current hn))

/-- The versions can be read again after every attempt. -/
theorem versioned_outcome (ha : a.Proper view) (hs : Versioned (view s)) :
    Versioned (view (a.outcome s).2.engine) := by
  have he := ends ha hs
  generalize a.outcome s = outcome at he ⊢
  cases he with
  | untold => exact hs
  | current hn htold => exact htold ▸ hs
  | refused htold => exact htold ▸ Attempt.versioned_withVersions hs
  | committed htold hstart hruns _ hn => exact (versions_of_runs ha hs hn htold hstart hruns).2.1

/-- The version given is the greatest one that is recorded then. -/
theorem highest_outcome (ha : a.Proper view) (hs : Versioned (view s))
    (h : (a.outcome s).1 = .ok version) :
    version.number = highest (view (a.outcome s).2.engine) := by
  have he := ends ha hs
  generalize a.outcome s = outcome at h he ⊢
  cases he with
  | untold => cases h
  | current hn htold =>
    cases h
    rw [htold]
  | refused => cases h
  | committed htold hstart hruns _ hn =>
    cases h
    exact (versions_of_runs ha hs hn htold hstart hruns).2.2.symm

theorem outcome_of_error (ha : a.Proper view) (hs : Versioned (view s)) {failure : Failure}
    (h : (a.outcome s).1 = .error failure) :
    view (a.outcome s).2.engine = view s ∨
      view (a.outcome s).2.engine = withVersions (view s) := by
  have he := ends ha hs
  generalize a.outcome s = outcome at h he ⊢
  cases he with
  | untold => exact .inl rfl
  | refused htold => exact .inr htold
  | current => cases h
  | committed => cases h

theorem coordinates (ha : a.Proper view) (hs : Versioned (view s)) : a.Coordinates view s where
  asked := by
    rcases hasked : a.asked s with ⟨failure | version, told⟩
    · cases asked_eq_error ha.follows hasked
      exact .inl ⟨failure, rfl⟩
    · obtain ⟨rfl, htold⟩ := asked_eq_ok ha.follows hs hasked
      exact .inr ⟨told, rfl, htold⟩
  untold failure hasked := outcome_of_untold hasked
  current version told hasked hn := by
    obtain ⟨rfl, htold⟩ := asked_eq_ok ha.follows hs hasked
    exact ⟨outcome_of_current hasked (decide_eq_true hn), htold.trans (withVersions_of_current hn)⟩
  hooks version told hasked hn := by
    obtain ⟨rfl, -⟩ := asked_eq_ok ha.follows hs hasked
    rw [outcome_of_older hasked hn]
  committed version told t u results hasked hn hstart hruns hcommit := by
    obtain ⟨rfl, htold⟩ := asked_eq_ok ha.follows hs hasked
    have hon := (atomic ha.follows.lawful (within_changes ha) told).carriedOut t u results hstart
      hruns hcommit
    rw [outcome_of_older hasked hn, hon]
    exact ⟨rfl, rfl, (versions_of_runs ha hs hn htold hstart hruns).1⟩
  refused version told t hasked hn hstart hstops := by
    obtain ⟨rfl, -⟩ := asked_eq_ok ha.follows hs hasked
    obtain ⟨reason, hon⟩ := (atomic ha.follows.lawful (within_changes ha) told).stopped t hstart
      hstops
    rw [outcome_of_older hasked hn, hon]
    exact ⟨_, rfl, rfl⟩
  done version told hasked hn := by
    obtain ⟨rfl, -⟩ := asked_eq_ok ha.follows hs hasked
    rw [outcome_of_older hasked hn]
    obtain ⟨t, u, results, hstart, hruns, hcommit, hon⟩ | ⟨failure, hon⟩ :=
      (atomic ha.follows.lawful (within_changes ha) told).cases
    · exact .inr ⟨t, u, results, hstart, hruns, hcommit, by rw [hon]; rfl⟩
    · exact .inl ⟨failure, by rw [hon]; rfl, by rw [hon]⟩
  inEffect version h := by
    have hversion := highest_outcome ha hs h
    refine ⟨hversion, fun b hb other after hasked => ?_⟩
    obtain ⟨rfl, -⟩ := asked_eq_ok hb (versioned_outcome ha hs) hasked
    exact congrArg SchemaVersion.mk hversion.symm
  unchanged failure h := by
    have hview := outcome_of_error ha hs h
    refine ⟨hview, ?_⟩
    obtain hview | hview := hview <;> rw [hview]
    exact Attempt.recordedVersions_withVersions _

/-! ### Any number of attempts -/

def afterAll (s : σ) (attempts : List (Trial ε σ τ)) : σ :=
  attempts.foldl (fun s a => (a.outcome s).2.engine) s

/-- After any attempts, with any hooks, through connections that may refuse anything, an attempt
calls the hooks from the greatest version on, and all of what they give takes effect or nothing. -/
theorem coordinates_afterAll {earlier : List (Trial ε σ τ)} (hs : Versioned (view s))
    (hearlier : ∀ b ∈ earlier, b.Proper view) (ha : a.Proper view) :
    a.Coordinates view (afterAll s earlier) := by
  induction earlier generalizing s with
  | nil => exact coordinates ha hs
  | cons b earlier ih =>
    obtain ⟨hb, hearlier⟩ := List.forall_mem_cons.1 hearlier
    exact ih (versioned_outcome hb hs) hearlier

/-! ### Attempts with a database of its own -/

/-- A connection that performs statements as that of a database does follows the database. -/
theorem follows_of_perform {c : Connection Refusal Database Pending} (hl : c.Lawful)
    (hnow : c.now = Pending.now) (hp : ∀ s t, c.perform s t = Database.connection.perform s t) :
    Follows c id where
  lawful := hl
  does s _ t u result h := by
    rw [hnow]
    exact Database.perform_of_does (hp s t) h

theorem proper_of_perform {a : Trial Refusal Database Pending} (hl : a.connection.Lawful)
    (hnow : a.connection.now = Pending.now)
    (hp : ∀ s t, a.connection.perform s t = Database.connection.perform s t)
    (hs : ∀ table ∈ a.tables, ∀ step, ∀ s ∈ table.statements step,
      a.connection.Within s ∧ s.Spares versionTableName ∧
        ∀ l, s.command.newTable? = some l → sameName l.name versionTableName = false) :
    a.Proper id where
  follows := follows_of_perform hl hnow hp
  within table htable step s hmem := (hs table htable step s hmem).1
  spares table htable step s hmem t u result h := by
    obtain ⟨-, hspares, hnew⟩ := hs table htable step s hmem
    rw [hnow]
    exact Database.table?_performStatement_eq hspares hnew (Database.perform_of_does (hp s t) h)

/-- The ledger brought up to date through a connection. -/
def ledger (c : Connection Refusal Database Pending) : Trial Refusal Database Pending :=
  ⟨⟨[ledgerHooks], .epoch⟩, c⟩

/-- A table whose hooks give a text that a database does not carry out. -/
def misspelled : TableHooks where
  name := "misspelled"
  statements _ := [raw "CREATE TABEL misspelled;"]

theorem proper_ledger {c : Connection Refusal Database Pending} (hl : c.Lawful)
    (hnow : c.now = Pending.now) (hp : ∀ s t, c.perform s t = Database.connection.perform s t)
    (hw : ∀ s, c.Within s) : (ledger c).Proper id := by
  refine proper_of_perform hl hnow hp fun table htable step s hs => ?_
  cases List.mem_singleton.1 htable
  refine ⟨hw s, Attempt.spares_ledger .epoch _ (List.mem_singleton_self _) step s hs, fun l h => ?_⟩
  obtain rfl | ⟨column, rfl⟩ := Attempt.mem_statements_ledger hs
  · cases h
    exact sameName_tableName_versions
  · cases h

theorem proper_misspelled : Proper ⟨⟨[misspelled], .epoch⟩, Database.connection⟩ id := by
  refine proper_of_perform Database.lawful_connection rfl (fun _ _ => rfl)
    fun table htable step s hs => ?_
  cases List.mem_singleton.1 htable
  cases List.mem_singleton.1 hs
  exact ⟨Database.within_connection _, nofun, nofun⟩

/-- The ledger is brought up to date in a new database after an attempt for which there was no room,
and another one that failed. -/
theorem coordinates_ledger_after_failures :
    Versioned (id Database.empty) ∧
      (∀ b ∈ [ledger (limited 1), ⟨⟨[misspelled], .epoch⟩, Database.connection⟩], b.Proper id) ∧
      (ledger Database.connection).Proper id ∧
      (ledger Database.connection).Coordinates id (afterAll Database.empty
        [ledger (limited 1), ⟨⟨[misspelled], .epoch⟩, Database.connection⟩]) := by
  have hw := Database.within_connection
  have hlimited : (ledger (limited 1)).Proper id :=
    proper_ledger (lawful_limited 1) rfl (perform_limited 1) hw
  have hearlier : ∀ b ∈ [ledger (limited 1), ⟨⟨[misspelled], .epoch⟩, Database.connection⟩],
      b.Proper id :=
    List.forall_mem_cons.2 ⟨hlimited, List.forall_mem_singleton.2 proper_misspelled⟩
  have hledger := proper_ledger Database.lawful_connection rfl (fun _ _ => rfl) hw
  exact ⟨Attempt.versioned_empty, hearlier, hledger,
    coordinates_afterAll Attempt.versioned_empty hearlier hledger⟩

/-- A database in which an index has the name of the table of versions. -/
def nameTaken : Database := ⟨[], [⟨versionTableName, tableName, ["created_at"]⟩]⟩

/-- A table that is created by one statement. -/
def sole : TableHooks := ⟨tableName, fun _ => [createTable]⟩

/-- An attempt with room for the table of versions only. -/
def crowded : Trial Refusal Database Pending := ⟨⟨[sole], .epoch⟩, limited 1⟩

/-- Everything that is to be done is carried out, and yet the attempt fails. -/
theorem crowded_refused : ∃ told t u results, crowded.asked .empty = (.ok .none, told) ∧
    crowded.connection.start told = .ok t ∧
    Runs crowded.connection t (crowded.changes 0) u results ∧
    ∃ failure, (crowded.outcome .empty).1 = .error failure := by
  have hfollows : Follows crowded.connection id :=
    follows_of_perform (lawful_limited 1) rfl (perform_limited 1)
  have htold : (crowded.asked .empty).1.toOption = some .none := by decide +kernel
  have hdone : (crowded.connection.performAll [] (crowded.changes 0)
      ⟨withVersions .empty, withVersions .empty⟩).1.toOption = some [] := by decide +kernel
  have hfailed : (crowded.outcome .empty).1.toOption = none := by decide +kernel
  rcases hasked : crowded.asked .empty with ⟨_ | version, told⟩ <;> rw [hasked] at htold
  · cases htold
  obtain ⟨rfl, hview⟩ := asked_eq_ok hfollows Attempt.versioned_empty hasked
  obtain rfl : told = withVersions .empty := hview
  obtain ⟨u, results, hruns⟩ | hstops := runs_or_stops crowded.connection
    ⟨withVersions .empty, withVersions .empty⟩ (crowded.changes 0)
  · refine ⟨_, _, u, results, rfl, rfl, hruns, ?_⟩
    cases h : (crowded.outcome .empty).1 with
    | error failure => exact ⟨failure, rfl⟩
    | ok version =>
      rw [h] at hfailed
      cases hfailed
  · obtain ⟨reason, u, h⟩ := performAll_of_stops hstops []
    rw [h] at hdone
    cases hdone

/-- Where the version cannot be asked for, no hook is called, though no version is recorded; and what
has been carried out need not take effect. -/
theorem not_called_of_not_told :
    (bringUp [ledgerHooks] .epoch).on
        (⟨⟨[], .error (.transaction "injected failure")⟩, []⟩ : Coordinator Recorder) =
      (.error (.transaction "injected failure"),
        ⟨⟨[askVersion], .error (.transaction "injected failure")⟩, []⟩) ∧
    (Versioned nameTaken ∧ highest nameTaken < SchemaVersion.current.number ∧
      ((ledger Database.connection).outcome nameTaken).2.called = [] ∧
      (ledger Database.connection).hooksFrom (highest nameTaken) = [(ledgerHooks, .create)]) ∧
    ∃ told t u results, crowded.asked .empty = (.ok .none, told) ∧
      crowded.connection.start told = .ok t ∧
      Runs crowded.connection t (crowded.changes 0) u results ∧
      ∃ failure, (crowded.outcome .empty).1 = .error failure := by
  refine ⟨rfl, ⟨nofun, by decide, ?_, rfl⟩, crowded_refused⟩
  have hasked : (ledger Database.connection).asked nameTaken =
      (.error (refused (.indexExists versionTableName)), nameTaken) :=
    storedVersion_on_of_index rfl (by decide +kernel)
  rw [outcome_of_untold hasked]

end Trial

end AdLedger.Store
