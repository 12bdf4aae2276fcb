import AdLedger.Cli.Command
import AdLedger.Proofs.Files
import AdLedger.Proofs.Store.Atomicity
import AdLedger.Proofs.Store.Reopening

/-!
# Commands that fail

What a command that fails has done to the files. At every place of the tree the text and the events
are as they were (`Files.Kept`), apart from the files that come and go beside a database in use
(`Beside`): so `Spared` says, and so it is after every command on a ledger and after a change of the
settings.
-/

namespace AdLedger

open Sql (Database Record)
open Store (Work eventRows)
open Time (Instant)

/-! ## What is kept in files -/

namespace Files

/-- The text kept at a place. -/
def textAt (fs : Files) (p : Path) : Option String :=
  match fs.node? p with
  | some (.text content) => some content
  | _ => none

/-- The rows of events in the database kept at a place. -/
def rowsAt (fs : Files) (p : Path) : List Record :=
  match fs.node? p with
  | some (.database db) => eventRows db
  | _ => []

/-- The text and the events at a place are as before. -/
structure Kept (fs after : Files) (p : Path) : Prop where
  text : after.textAt p = fs.textAt p
  rows : after.rowsAt p = fs.rowsAt p

variable {fs mid after : Files} {p : Path}

theorem Kept.trans (h : Kept fs mid p) (h' : Kept mid after p) : Kept fs after p :=
  ⟨h'.text.trans h.text, h'.rows.trans h.rows⟩

theorem kept_of_node? (h : after.node? p = fs.node? p) : Kept fs after p := by
  refine ⟨?_, ?_⟩ <;> simp only [textAt, rowsAt, h]

/-- A directory that is new holds neither texts nor events. -/
theorem Grown.kept (h : fs.Grown after) (p : Path) : Kept fs after p := by
  obtain hn | ⟨hnone, hd⟩ := h.node p
  · exact kept_of_node? hn
  · refine ⟨?_, ?_⟩ <;> simp only [textAt, rowsAt, hnone, hd]

end Files

namespace Cli

open Files (Kept KeepsDirectories Grown Cleared)

variable {fs mid after : Files} {database : Option String} {path : String} {p : Path}

/-- A place where a companion of the database would be. -/
def Beside (database : Option String) (fs : Files) (p : Path) : Prop :=
  ∃ path, database = some path ∧ ∃ companion ∈ companions path, fs.locate companion = .ok p

/-- A database is never at a place beside it. -/
theorem not_beside_of_locate (hdb : database = some path) (hl : fs.locate path = .ok p) :
    ¬ Beside database fs p := by
  rintro ⟨path', hdb', companion, hc, hl'⟩
  cases hdb.symm.trans hdb'
  obtain rfl | hc := List.mem_cons.1 hc
  · exact Files.locate_append_ne (by decide) (by decide) hl hl'
  · cases List.mem_singleton.1 hc
    exact Files.locate_append_ne (by decide) (by decide) hl hl'

theorem Beside.mono (h : Beside database fs p) (hk : fs.KeepsDirectories after) :
    Beside database after p := by
  obtain ⟨path, hdb, companion, hc, hl⟩ := h
  exact ⟨path, hdb, companion, hc, hk.locate hl⟩

/-- Everything is kept that is not beside the database. -/
structure Spared (database : Option String) (fs after : Files) : Prop where
  directories : fs.KeepsDirectories after
  kept : ∀ p, ¬ Beside database after p → Kept fs after p

namespace Spared

theorem refl (database : Option String) (fs : Files) : Spared database fs fs :=
  ⟨.refl fs, fun _ _ => Files.kept_of_node? rfl⟩

theorem trans (h : Spared database fs mid) (h' : Spared database mid after) :
    Spared database fs after := by
  refine ⟨h.directories.trans h'.directories, fun p hp => ?_⟩
  exact (h.kept p fun hb => hp (hb.mono h'.directories)).trans (h'.kept p hp)

end Spared

theorem spared_of_grown (h : fs.Grown after) (database : Option String) :
    Spared database fs after :=
  ⟨h.keepsDirectories, fun p _ => h.kept p⟩

theorem spared_of_cleared (h : Cleared (companions path) fs after) :
    Spared (some path) fs after := by
  refine ⟨h.directories, fun p hp => Files.kept_of_node? (h.node p fun companion hc hl => ?_)⟩
  exact hp ⟨path, rfl, companion, hc, hl⟩

/-! ## Parts that read -/

theorem get_on (fs : Files) : (get : Work Files Files).on fs = (.ok fs, fs) := rfl

theorem reads_get : (get : Work Files Files).Reads := fun _ => rfl

theorem reads_located (fault : SettingsFault) (path : Option String) :
    (located fault path).Reads := by
  cases path <;> exact fun _ => rfl

theorem reads_loadSettings (path : Option String) : (loadSettings path).Reads := by
  cases path <;> exact fun _ => rfl

theorem reads_readItems (file : String) : (readItems file).Reads := by
  refine Work.Reads.bind (fun _ => rfl) fun content => ?_
  split <;> exact fun _ => rfl

/-! ## Work with the database -/

theorem cleared_discard {paths : List String} (hp : path ∈ paths) (fs : Files) :
    Cleared paths fs (discard fs path) := by
  unfold discard
  cases h : fs.remove path with
  | ok after => exact Files.cleared_remove hp h
  | error fault => exact .refl paths fs

theorem cleared_discards {paths taken : List String} (hs : ∀ path ∈ taken, path ∈ paths)
    (fs : Files) : Cleared paths fs (taken.foldl discard fs) := by
  induction taken generalizing fs with
  | nil => exact .refl paths fs
  | cons path rest ih =>
    obtain ⟨hp, hrest⟩ := List.forall_mem_cons.1 hs
    exact (cleared_discard hp fs).trans (ih hrest _)

/-- What is read as a database is one, or nothing has been kept in it yet. -/
theorem databaseAt_eq_ok {db : Database} (h : databaseAt fs path = .ok db) :
    db = Database.empty ∨ path ≠ nowhere ∧
      ∃ p, fs.locate path = .ok p ∧ fs.node? p = some (.database db) := by
  unfold databaseAt at h
  split at h
  · cases h
    exact .inl rfl
  next hn =>
    split at h
    next p db' hf =>
      cases h
      exact .inr ⟨hn, p, Files.find_eq_ok.1 hf⟩
    · split at h <;> cases h
      exact .inl rfl
    · cases h
    · cases h
      exact .inl rfl

theorem spared_keepDatabase {before db : Database} (hl : fs.locate path = .ok p)
    (hn : fs.node? p = some (.database before)) (hrows : eventRows db = eventRows before)
    (h : keepDatabase fs path db = .ok after) : Spared (some path) fs after := by
  unfold keepDatabase at h
  split at h
  · cases h
    exact .refl _ fs
  · split at h
    next kept hw =>
      cases h
      obtain ⟨q, hq, hd, -, rfl⟩ := Files.write_eq_ok.1 hw
      cases hl.symm.trans hq
      have hput : Spared (some path) fs (fs.put p (.database db)) := by
        refine ⟨Files.keepsDirectories_put hd, fun r _ => ?_⟩
        by_cases hr : r = p
        · subst hr
          have hself : (fs.put r (.database db)).node? r = some (.database db) :=
            Files.node?_put_self _ (Files.ne_nil_of_isDirectory_eq_false hd)
          refine ⟨?_, ?_⟩
          · simp only [Files.textAt, hself, hn]
          · simp only [Files.rowsAt, hself, hn, hrows]
        · exact Files.kept_of_node? (Files.node?_put_of_ne hr)
      exact hput.trans (spared_of_cleared (cleared_discards (fun _ hc => hc) _))
    · cases h

/-- Work with a database keeps everything when it fails, if it keeps the events and cannot fail
where there is no database yet. -/
theorem withDatabase_fails {α : Type} {work : Work Database α}
    (hw : work.Fails fun db after => eventRows after = eventRows db)
    (he : ∃ a db, work.on Database.empty = (.ok a, db)) :
    (withDatabase path work).Fails (Spared (some path)) := by
  intro fs failure after h
  replace h : withDatabase path work fs = (.error failure, after) := h
  unfold withDatabase at h
  split at h
  · cases h
    exact .refl _ fs
  next db hdb =>
    cases hon : work.on db with
    | mk result mid =>
      rw [show work.run.run db = (result, mid) from hon] at h
      dsimp only at h
      split at h
      next kept hk =>
        cases h
        obtain rfl | ⟨-, p, hl, hn⟩ := databaseAt_eq_ok hdb
        · obtain ⟨a, db', hok⟩ := he
          cases hok.symm.trans hon
        · exact spared_keepDatabase hl hn (hw db failure mid hon) hk
      · cases h
        exact .refl _ fs

/-- Opening a ledger keeps everything when it fails. -/
theorem fails_openLedger (path : String) (now : Instant) :
    (withDatabase path (Store.openLedger now)).Fails (Spared (some path)) := by
  refine withDatabase_fails (Work.Always.fails (Store.keepsEvents_openLedger now)) ?_
  obtain ⟨db, ho, -⟩ := Store.openLedger_on_empty now
  exact ⟨_, db, ho⟩

/-- Opening a ledger before some work keeps the events when either fails. -/
theorem fails_openLedger_bind {α : Type} {work : Work Database α} (hw : work.Restores)
    (now : Instant) :
    (Store.openLedger now >>= fun _ => work).Fails fun db after =>
      eventRows after = eventRows db := by
  have hkeeps := Store.keepsEvents_openLedger now
  refine Work.Fails.bind (Work.Always.fails hkeeps) fun db version mid hon failure after h => ?_
  have hmid := hkeeps db
  rw [hon] at hmid
  rwa [hw mid failure after h]

theorem openLedger_bind_on_empty {α : Type} {work : Work Database α}
    (he : ∀ db rows, Store.Holds db rows → ∃ a after, work.on db = (.ok a, after))
    (now : Instant) :
    ∃ a after, (Store.openLedger now >>= fun _ => work).on Database.empty = (.ok a, after) := by
  obtain ⟨mid, ho, hready⟩ := Store.openLedger_on_empty now
  obtain ⟨a, after, hon⟩ := he mid [] hready.events
  exact ⟨a, after, (Work.on_bind_of_ok ho).trans hon⟩

/-- Work with a ledger keeps everything when it fails, if it changes nothing when it fails and
cannot fail where the table of events is there. -/
theorem fails_withLedger {α : Type} {work : Work Database α} (hw : work.Restores)
    (he : ∀ db rows, Store.Holds db rows → ∃ a after, work.on db = (.ok a, after))
    (database : Option String) (now : Instant) :
    (withLedger database now work).Fails (Spared database) := by
  cases database with
  | none => exact Work.Reads.fails (fun _ => rfl) (Spared.refl none)
  | some path =>
    refine reads_get.bind_fails (Spared.refl _) fun fs => ?_
    split
    · exact Work.fails_throw_bind _ (Spared.refl _)
    · exact withDatabase_fails (fails_openLedger_bind hw now) (openLedger_bind_on_empty he now)

/-! ## Commands on a ledger -/

theorem restores_query (command : Sql.Command Sql.Term) (values : List Sql.Scalar) :
    (Store.query command values : Work Database (List Item)).Restores :=
  Store.restores_query Database.lawful_connection (Database.within_connection _)

variable (places : Places) (now : Instant)

theorem fails_record (draft : Draft) (freshId : String) :
    (record places draft now freshId).Fails (Spared places.database) := by
  refine Work.fails_mk_bind (Spared.refl _) fun item _ => ?_
  refine (reads_loadSettings _).bind_fails (Spared.refl _) fun handle => ?_
  have hw := Store.restores_save Database.lawful_connection
  refine (fails_withLedger (hw _ _) (fun db rows h => ?_) _ now).map _
  obtain ⟨after, hs, -⟩ := Store.save_on h handle.settings [item]
  exact ⟨_, after, hs⟩

theorem fails_importItems (file : String) :
    (importItems places file now).Fails (Spared places.database) := by
  refine (reads_readItems file).bind_fails (Spared.refl _) fun items => ?_
  refine (reads_loadSettings _).bind_fails (Spared.refl _) fun handle => ?_
  have hw := Store.restores_save Database.lawful_connection
  refine (fails_withLedger (hw _ _) (fun db rows h => ?_) _ now).map _
  obtain ⟨after, hs, -⟩ := Store.save_on h handle.settings items
  exact ⟨_, after, hs⟩

theorem fails_history (period : Period) (best : Bool) :
    (history places period best now).Fails (Spared places.database) := by
  refine (reads_loadSettings _).bind_fails (Spared.refl _) fun handle => ?_
  refine Work.fails_mk_bind (Spared.refl _) fun range _ => ?_
  obtain ⟨start, finish⟩ := range
  refine (fails_withLedger ?_ (fun db rows h => ?_) _ now).map _
  · split <;> exact restores_query _ _
  · split
    · exact ⟨_, db, Store.bestInRange_on h start finish⟩
    · exact ⟨_, db, Store.itemsInRange_on h start finish⟩

theorem fails_creative (id : String) :
    (creative places id now).Fails (Spared places.database) := by
  refine (reads_loadSettings _).bind_fails (Spared.refl _) fun _ => ?_
  refine (fails_withLedger (restores_query _ _) (fun db rows h => ?_) _ now).map _
  exact ⟨_, db, Store.itemsOfCreative_on h id⟩

/-- The cutoff is known before the ledger is opened, so that purging it cannot fail for the want of
one. -/
theorem fails_purge : (purge places now).Fails (Spared places.database) := by
  refine (reads_loadSettings _).bind_fails (Spared.refl _) fun handle => ?_
  refine Work.fails_mk_bind (Spared.refl _) fun cutoff hc => ?_
  have hw := Store.restores_purge Database.lawful_connection
  refine (fails_withLedger (hw _ _) (fun db rows h => ?_) _ now).map _
  obtain ⟨after, hp, -⟩ := Store.purge_on h hc
  exact ⟨_, after, hp⟩

/-! ## Settings -/

theorem grown_makeParent (h : Settings.makeParent fs path = .ok after) : fs.Grown after := by
  unfold Settings.makeParent at h
  split at h
  · exact Files.grown_makeAll h
  · cases h
    exact .refl _

/-- A directory may have been made when settings cannot be written. -/
theorem fails_saveSettings (path : String) (settings : Settings) :
    (saveSettings path settings).Fails Files.Grown := by
  intro fs failure after h
  replace h : settings.save fs path = (.error failure, after) := h
  unfold Settings.save at h
  split at h
  · cases h
    exact .refl _
  · split at h
    · cases h
      exact .refl _
    next hmade =>
      split at h
      · cases h
        exact grown_makeParent hmade
      · cases h

theorem fails_changeSettings (retentionDays batchSize : Option Nat) :
    (changeSettings places retentionDays batchSize).Fails (Spared places.database) := by
  refine (reads_located _ _).bind_fails (Spared.refl _) fun path => ?_
  refine (reads_loadSettings _).bind_fails (Spared.refl _) fun handle => ?_
  refine Work.Fails.bind ((fails_saveSettings _ _).mono fun _ _ h => spared_of_grown h _) ?_
  intro fs _ mid _ failure after h
  cases h

end Cli

end AdLedger
