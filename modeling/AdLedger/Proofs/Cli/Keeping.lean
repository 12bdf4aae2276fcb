import AdLedger.Proofs.Cli.Sparing

/-!
# Databases kept in files

A database is kept under a path (`Keeps`): it is found there, and what work has made of it is found
there afterwards. A command on a ledger does its work with the database that is kept under the path,
after opening the ledger.
-/

namespace AdLedger.Cli

open Sql (Database)
open Store (Work)
open Time (Instant)

variable {fs after : Files} {path : String} {p : Path} {db db' : Database}

/-- A path leads to a database in a directory, or to an empty text, in which nothing has been kept
yet. -/
structure Keeps (fs : Files) (path : String) (db : Database) : Prop where
  somewhere : path ≠ nowhere
  place : ∃ p, fs.locate path = .ok p ∧ fs.isDirectory p.dropLast = true ∧
    (fs.node? p = some (.database db) ∨ fs.node? p = some (.text "") ∧ db = Database.empty)

theorem cleared_companions (fs : Files) (path : String) :
    Files.Cleared (companions path) fs ((companions path).foldl discard fs) :=
  cleared_discards (fun _ h => h) fs

/-- To take away what may be beside a database leaves the database where it is. -/
theorem node?_discards (hl : fs.locate path = .ok p) :
    ((companions path).foldl discard fs).node? p = fs.node? p := by
  have hcleared := cleared_companions fs path
  refine hcleared.node p fun companion hc hl' => ?_
  exact not_beside_of_locate rfl (hcleared.directories.locate hl) ⟨path, rfl, companion, hc, hl'⟩

namespace Keeps

theorem contains (h : Keeps fs path db) : fs.contains path = true := by
  obtain ⟨p, hl, -, hn | ⟨hn, -⟩⟩ := h.place <;> exact Files.contains_iff.2 ⟨p, _, hl, hn⟩

theorem databaseAt_eq (h : Keeps fs path db) : databaseAt fs path = .ok db := by
  obtain ⟨p, hl, -, hn⟩ := h.place
  rw [databaseAt, if_neg h.somewhere]
  obtain hn | ⟨hn, rfl⟩ := hn
  · rw [Files.find_eq_ok.2 ⟨hl, hn⟩]
  · rw [Files.find_eq_ok.2 ⟨hl, hn⟩]
    rfl

/-- Another database can be kept in the place of one. -/
theorem exists_keepDatabase (h : Keeps fs path db) (db' : Database) :
    ∃ after, keepDatabase fs path db' = .ok after ∧ Keeps after path db' ∧
      fs.KeepsDirectories after := by
  obtain ⟨p, hl, hp, hn⟩ := h.place
  have hd : fs.isDirectory p = false := by
    obtain hn | ⟨hn, -⟩ := hn <;> exact Files.isDirectory_eq_false hn (by simp)
  have hput : fs.KeepsDirectories (fs.put p (.database db')) := Files.keepsDirectories_put hd
  have hkeeps := hput.trans (cleared_companions (fs.put p (.database db')) path).directories
  refine ⟨(companions path).foldl discard (fs.put p (.database db')), ?_, ⟨h.somewhere, p,
    hkeeps.locate hl, hkeeps.directory _ hp, .inl ?_⟩, hkeeps⟩
  · rw [keepDatabase, if_neg h.somewhere, Files.write_eq_ok.2 ⟨p, hl, hd, hp, rfl⟩]
  · rw [node?_discards (hput.locate hl)]
    exact Files.node?_put_self _ (Files.ne_nil_of_isDirectory_eq_false hd)

variable {α : Type} {work : Work Database α} {a : α} {now : Instant}

/-- What work makes of a database is kept in its place, also where the work fails. -/
theorem exists_withDatabase_on (h : Keeps fs path db) (work : Work Database α) :
    ∃ after, (withDatabase path work).on fs = ((work.on db).1, after) ∧
      Keeps after path (work.on db).2 ∧ fs.KeepsDirectories after := by
  obtain ⟨after, hk, hafter⟩ := h.exists_keepDatabase (work.on db).2
  refine ⟨after, ?_, hafter⟩
  show withDatabase path work fs = _
  rw [withDatabase, h.databaseAt_eq]
  simp only [show work.run.run db = work.on db from rfl, hk]

theorem exists_withLedger_on (h : Keeps fs path db) (work : Work Database α) (now : Instant) :
    ∃ after, (withLedger (some path) now work).on fs =
        (((Store.openLedger now >>= fun _ => work).on db).1, after) ∧
      Keeps after path ((Store.openLedger now >>= fun _ => work).on db).2 ∧
      fs.KeepsDirectories after := by
  obtain ⟨after, hon, hafter⟩ := h.exists_withDatabase_on (Store.openLedger now >>= fun _ => work)
  refine ⟨after, ?_, hafter⟩
  rw [withLedger, Work.on_bind_of_ok (get_on fs), h.contains]
  exact hon

theorem withLedger_on (h : Keeps fs path db)
    (hw : (Store.openLedger now >>= fun _ => work).on db = (.ok a, db')) :
    ∃ after, (withLedger (some path) now work).on fs = (.ok a, after) ∧ Keeps after path db' := by
  obtain ⟨after, hon, hafter, -⟩ := h.exists_withLedger_on work now
  rw [hw] at hon hafter
  exact ⟨after, hon, hafter⟩

/-- The rows at the place of a database are those of its events. -/
theorem rowsAt_eq (h : Keeps fs path db) (hl : fs.locate path = .ok p) :
    fs.rowsAt p = Store.eventRows db := by
  obtain ⟨q, hq, -, hn⟩ := h.place
  cases hl.symm.trans hq
  obtain hn | ⟨hn, rfl⟩ := hn
  · simp only [Files.rowsAt, hn]
  · simp only [Files.rowsAt, hn]
    rfl

end Keeps

end AdLedger.Cli
