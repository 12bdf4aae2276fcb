import AdLedger.Cli.Run
import AdLedger.Proofs.Cli.Sparing
import Mathlib

/-!
# Runs that fail

A run that fails keeps every text and all events, apart from what is beside the database, with one
exception: a run that is to create a database in the place of one takes the old one away before it
reads the settings, and does not bring it back.
-/

namespace AdLedger.Cli

open Files (Kept KeepsDirectories Cleared)
open Sql (Record)
open Store (Work)
open Time (Instant)

variable {fs mid made after : Files} {database : Option String} {path : String} {p : Path}
  {failure : Failure} (places : Places) (now : Instant)

/-! ## Creating a database -/

/-- The database leads to a place where there is a text or an event. -/
def Held (database : Option String) (fs : Files) (p : Path) : Prop :=
  (∃ path, database = some path ∧ fs.locate path = .ok p) ∧
    (fs.textAt p ≠ none ∨ fs.rowsAt p ≠ [])

/-- Of what is not beside the database, all but what is discarded is kept. -/
structure KeptUnless (database : Option String) (discarded : Files → Path → Prop)
    (fs after : Files) : Prop where
  directories : fs.KeepsDirectories after
  kept_iff : ∀ p, ¬ Beside database after p → (Kept fs after p ↔ ¬ discarded fs p)

theorem Spared.keptUnless {discarded : Files → Path → Prop} (h : Spared database fs after)
    (hd : ∀ p, ¬ discarded fs p) : KeptUnless database discarded fs after :=
  ⟨h.directories, fun p hp => iff_of_true (h.kept p hp) (hd p)⟩

/-- What is done when nothing is in the place of the database any more. -/
def createAt (places : Places) (path : String) (now : Instant) : Work Files Report := do
  alter (Settings.makeParent · path)
  let _ ← loadSettings places.settings
  let version ← withDatabase path (Store.openLedger now)
  return .created path version

theorem alter_cases (change : Files → Except FileFault Files) (fs : Files) :
    (∃ changed, change fs = .ok changed ∧ (alter change).on fs = (.ok (), changed)) ∨
      ∃ fault, change fs = .error fault ∧
        (alter change).on fs = (.error (.file fault.message), fs) := by
  have hon : (alter change).on fs = alter change fs := rfl
  rw [hon, alter]
  cases h : change fs with
  | ok changed => exact .inl ⟨changed, rfl, rfl⟩
  | error fault => exact .inr ⟨fault, rfl, rfl⟩

theorem alter_on_eq_ok {change : Files → Except FileFault Files} :
    (alter change).on fs = (.ok (), after) ↔ change fs = .ok after := by
  obtain ⟨changed, hc, ha⟩ | ⟨fault, hc, ha⟩ := alter_cases change fs <;> rw [ha, hc] <;> simp

theorem restores_alter (change : Files → Except FileFault Files) : (alter change).Restores := by
  intro fs failure after h
  obtain ⟨_, -, ha⟩ | ⟨_, -, ha⟩ := alter_cases change fs <;> cases ha.symm.trans h
  rfl

theorem fails_createAt (path : String) :
    (createAt places path now).Fails (Spared (some path)) := by
  refine Work.Fails.bind ((restores_alter _).mono fun _ _ h => h ▸ .refl _ _) ?_
  intro fs _ mid hmade failure after h
  have hgrown := grown_makeParent (alter_on_eq_ok.1 hmade)
  have hrest := (reads_loadSettings places.settings).bind_fails (Spared.refl (some path))
    fun _ => (fails_openLedger path now).map (Report.created path)
  exact (spared_of_grown hgrown _).trans (hrest mid failure after h)

theorem cleared_alter_remove {paths : List String} (hp : path ∈ paths) :
    (alter (·.remove path)).Always (Cleared paths) := by
  intro fs
  obtain ⟨removed, hr, ha⟩ | ⟨_, -, ha⟩ := alter_cases (·.remove path) fs <;> rw [ha]
  · exact Files.cleared_remove hp hr
  · exact .refl paths fs

/-- What is done about a file that may be beside a database. -/
def removeCompanion (companion : String) : Work Files (ForInStep PUnit) := do
  if (← get).contains companion then alter (·.remove companion)
  return .yield PUnit.unit

theorem removeDatabase_eq (path : String) :
    removeDatabase path = alter (·.remove path) >>= fun _ =>
      (forIn (companions path) PUnit.unit fun companion _ => removeCompanion companion) >>=
        fun _ => pure () :=
  rfl

/-- Files are taken away one after the other, as far as that can be done. -/
theorem cleared_removeCompanions {paths taken : List String} (hs : ∀ c ∈ taken, c ∈ paths) :
    (forIn taken PUnit.unit fun companion _ => removeCompanion companion).Always
      (Cleared paths) := by
  induction taken with
  | nil => exact .refl paths
  | cons companion rest ih =>
    obtain ⟨hc, hrest⟩ := List.forall_mem_cons.1 hs
    rw [List.forIn_cons]
    refine Work.Always.bind ?_ .trans fun step => ?_
    · refine Work.Always.bind (fun fs => .refl paths fs) .trans fun fs => ?_
      split
      · exact (cleared_alter_remove hc).map _
      · exact .refl paths
    · cases step with
      | done _ => exact .refl paths
      | yield _ => exact ih hrest

theorem removeDatabase_cases (path : String) (fs : Files) :
    (∃ fault failure, fs.remove path = .error fault ∧
      (removeDatabase path).on fs = (.error failure, fs)) ∨
    ∃ mid, fs.remove path = .ok mid ∧
      Cleared (companions path) mid ((removeDatabase path).on fs).2 := by
  rw [removeDatabase_eq]
  obtain ⟨mid, hm, ha⟩ | ⟨fault, hf, ha⟩ := alter_cases (·.remove path) fs
  · refine .inr ⟨mid, hm, ?_⟩
    rw [Work.on_bind_of_ok ha]
    exact (Work.Always.map (cleared_removeCompanions fun _ h => h) _) mid
  · exact .inl ⟨fault, _, hf, Work.on_bind_of_error ha⟩

/-- What a run does that has taken the database away and goes no further than to spare the rest. -/
theorem keptUnless_of_erased {node : Node} (hl : fs.locate path = .ok p)
    (hn : fs.node? p = some node) (hd : node ≠ .directory)
    (h : Spared (some path) (fs.erase p) after) :
    KeptUnless (some path) (fun fs p => Held (some path) fs p) fs after := by
  have hfile := Files.isDirectory_eq_false hn hd
  refine ⟨(Files.keepsDirectories_erase hfile).trans h.directories, fun q hq => ?_⟩
  have hkept := h.kept q hq
  by_cases hqp : q = p
  · subst hqp
    have hgone : (fs.erase q).node? q = none :=
      Files.node?_erase_self (Files.ne_nil_of_isDirectory_eq_false hfile)
    have htext : after.textAt q = none := by rw [hkept.text, Files.textAt, hgone]
    have hrows : after.rowsAt q = [] := by rw [hkept.rows, Files.rowsAt, hgone]
    constructor
    · rintro hk ⟨-, ht | hr⟩
      · exact ht (hk.text.symm.trans htext)
      · exact hr (hk.rows.symm.trans hrows)
    · intro hheld
      rw [Held, not_and_or, not_or, not_not, not_not] at hheld
      obtain hheld | ⟨ht, hr⟩ := hheld
      · exact absurd ⟨path, rfl, hl⟩ hheld
      · exact ⟨htext.trans ht.symm, hrows.trans hr.symm⟩
  · refine iff_of_true ?_ ?_
    · exact (Files.kept_of_node? (Files.node?_erase_of_ne hqp)).trans hkept
    · rintro ⟨⟨path', hpath', hl'⟩, -⟩
      cases hpath'
      exact hqp (Except.ok.inj (hl'.symm.trans hl))

theorem not_held_of_not_contains (h : fs.contains path = false) : ¬ Held (some path) fs p := by
  rintro ⟨⟨path', hpath', hl⟩, hkept⟩
  cases hpath'
  have hnone : fs.node? p = none := by
    rw [Option.eq_none_iff_forall_ne_some]
    intro node hn
    have hin := Files.contains_iff.2 ⟨p, node, hl, hn⟩
    rw [h] at hin
    cases hin
  simp [Files.textAt, Files.rowsAt, hnone] at hkept

/-- A database that cannot be taken away is a directory. -/
theorem not_held_of_remove {fault : FileFault} (h : fs.remove path = .error fault) :
    ¬ Held (some path) fs p := by
  rintro ⟨⟨path', hpath', hl⟩, hkept⟩
  cases hpath'
  cases hn : fs.node? p with
  | none => simp [Files.textAt, Files.rowsAt, hn] at hkept
  | some node =>
    cases node with
    | directory => simp [Files.textAt, Files.rowsAt, hn] at hkept
    | text _ => cases h.symm.trans (Files.remove_eq_ok.2 ⟨p, _, hl, hn, by simp, rfl⟩)
    | database _ => cases h.symm.trans (Files.remove_eq_ok.2 ⟨p, _, hl, hn, by simp, rfl⟩)

/-- What is taken away stays away if something fails after that. -/
theorem fails_replace (path : String) :
    (removeDatabase path >>= fun _ => createAt places path now).Fails
      (KeptUnless (some path) fun fs p => Held (some path) fs p) := by
  intro fs failure after h
  obtain ⟨fault, e, hr, ho⟩ | ⟨mid, hr, hcleared⟩ := removeDatabase_cases path fs
  · rw [Work.on_bind_of_error ho] at h
    cases h
    exact (Spared.refl _ fs).keptUnless fun p => not_held_of_remove hr
  · obtain ⟨p, node, hl, hn, hd, rfl⟩ := Files.remove_eq_ok.1 hr
    refine keptUnless_of_erased hl hn hd ?_
    cases ho : (removeDatabase path).on fs with
    | mk result left =>
      rw [ho] at hcleared
      refine (spared_of_cleared hcleared).trans ?_
      cases result with
      | error e =>
        rw [Work.on_bind_of_error ho] at h
        cases h
        exact .refl _ _
      | ok _ =>
        rw [Work.on_bind_of_ok ho] at h
        exact fails_createAt places now path _ _ _ h

/-- What is done about a database where the path leads to. -/
theorem create_on (settings : Option String) (force : Bool) (fs : Files) :
    (create ⟨some path, settings⟩ force now).on fs =
      if fs.contains path then
        if force then
          (removeDatabase path >>= fun _ => createAt ⟨some path, settings⟩ path now).on fs
        else (.error (.alreadyInitialized path), fs)
      else (createAt ⟨some path, settings⟩ path now).on fs := by
  unfold create located
  rw [Work.on_bind_of_ok (Work.on_pure path fs), Work.on_bind_of_ok (get_on fs)]
  cases fs.contains path with
  | false => rfl
  | true => cases force <;> rfl

theorem removeCompanions_on {taken : List String}
    (hc : ∀ companion ∈ taken, fs.contains companion = false) :
    (forIn taken PUnit.unit fun companion _ => removeCompanion companion : Work Files PUnit).on fs =
      (.ok PUnit.unit, fs) := by
  induction taken with
  | nil => rfl
  | cons companion rest ih =>
    obtain ⟨hcompanion, hrest⟩ := List.forall_mem_cons.1 hc
    have hstep : (removeCompanion companion).on fs = (.ok (.yield PUnit.unit), fs) := by
      rw [removeCompanion, Work.on_bind_of_ok (get_on fs), hcompanion, if_neg Bool.false_ne_true,
        Work.on_pure]
    rw [List.forIn_cons, Work.on_bind_of_ok hstep]
    exact ih hrest

/-- Where nothing is beside a file, nothing but the file is taken away. -/
theorem removeDatabase_on (hr : fs.remove path = .ok mid)
    (hc : ∀ companion ∈ companions path, mid.contains companion = false) :
    (removeDatabase path).on fs = (.ok (), mid) := by
  rw [removeDatabase_eq, Work.on_bind_of_ok (alter_on_eq_ok.2 hr),
    Work.on_bind_of_ok (removeCompanions_on hc), Work.on_pure]

theorem loadSettings_on_of_error (h : Settings.load fs path = .error failure) :
    (loadSettings (some path)).on fs = (.error failure, fs) := by
  have hon : (loadSettings (some path)).on fs = (SettingsHandle.ofFile fs path, fs) := rfl
  rw [hon, SettingsHandle.ofFile, h]
  rfl

/-- Settings that cannot be read are found out when the database is gone. -/
theorem create_on_of_unreadable {settings : String} (hr : fs.remove path = .ok mid)
    (hc : ∀ companion ∈ companions path, mid.contains companion = false)
    (hm : Settings.makeParent mid path = .ok made)
    (hs : Settings.load made settings = .error failure) :
    (create ⟨some path, some settings⟩ true now).on fs = (.error failure, made) := by
  obtain ⟨p, node, hl, hn, -, -⟩ := Files.remove_eq_ok.1 hr
  rw [create_on, if_pos (Files.contains_iff.2 ⟨p, node, hl, hn⟩), if_pos rfl,
    Work.on_bind_of_ok (removeDatabase_on hr hc), createAt,
    Work.on_bind_of_ok (alter_on_eq_ok.2 hm), Work.on_bind_of_error (loadSettings_on_of_error hs)]

/-- The one failure that loses something: a database was to be replaced. -/
theorem fails_create (force : Bool) :
    (create places force now).Fails
      (KeptUnless places.database fun fs p => force = true ∧ Held places.database fs p) := by
  intro fs failure after h
  obtain ⟨_ | path, settings⟩ := places
  · cases h
    refine (Spared.refl none fs).keptUnless ?_
    rintro p ⟨-, ⟨path, hpath, -⟩, -⟩
    cases hpath
  · rw [create_on] at h
    cases hc : fs.contains path with
    | false =>
      rw [hc, if_neg Bool.false_ne_true] at h
      refine (fails_createAt _ now path fs failure after h).keptUnless fun p hp => ?_
      exact not_held_of_not_contains hc hp.2
    | true =>
      rw [hc, if_pos rfl] at h
      cases force with
      | false =>
        rw [if_neg Bool.false_ne_true] at h
        cases h
        exact (Spared.refl _ fs).keptUnless fun p hp => Bool.false_ne_true hp.1
      | true =>
        rw [if_pos rfl] at h
        obtain ⟨hd, hk⟩ := fails_replace _ now path fs failure after h
        exact ⟨hd, by simpa using hk⟩

/-! ## Every command -/

theorem reads_rank (file : String) : (rank file).Reads := by
  refine Work.Reads.bind (fun _ => rfl) fun content => ?_
  split <;> exact fun _ => rfl

theorem reads_showSettings : (showSettings places).Reads :=
  (reads_located _ _).bind fun _ => (reads_loadSettings _).bind fun _ _ => rfl

/-- Whether an action is to create a database in the place of any that exists. -/
def Action.replaces : Action → Bool
  | .create force => force
  | _ => false

theorem fails_perform (i : Invocation) (around : Surroundings) :
    (i.perform around).Fails (KeptUnless (i.places around.environment).database fun fs p =>
      i.action.replaces = true ∧ Held (i.places around.environment).database fs p) := by
  unfold Invocation.perform
  dsimp only
  generalize i.places around.environment = places
  generalize i.action = action
  have hspares {work : Work Files Report} (hi : action.replaces = false)
      (h : work.Fails (Spared places.database)) :
      work.Fails (KeptUnless places.database fun fs p =>
        action.replaces = true ∧ Held places.database fs p) := by
    refine h.mono fun fs after hs => hs.keptUnless fun p hp => ?_
    exact Bool.false_ne_true (hi.symm.trans hp.1)
  cases action with
  | create force => exact fails_create places around.now force
  | record draft => exact hspares rfl (fails_record places around.now draft around.freshId)
  | importItems file => exact hspares rfl (fails_importItems places around.now file)
  | history period best => exact hspares rfl (fails_history places around.now period best)
  | creative id => exact hspares rfl (fails_creative places around.now id)
  | purge => exact hspares rfl (fails_purge places around.now)
  | rank file => exact hspares rfl ((reads_rank file).fails (Spared.refl _))
  | showSettings => exact hspares rfl ((reads_showSettings places).fails (Spared.refl _))
  | changeSettings retentionDays batchSize =>
    exact hspares rfl (fails_changeSettings places retentionDays batchSize)
  | version => exact hspares rfl (Work.Reads.fails (fun _ => rfl) (Spared.refl _))
  | completions shell => exact hspares rfl (Work.Reads.fails (fun _ => rfl) (Spared.refl _))

/-! ## Runs -/

/-- The exit code of a run, carried out or not. -/
def exitCode : Except UsageFault Outcome → Nat
  | .error fault => fault.exitCode
  | .ok outcome => outcome.exitCode

/-- Where the database is for a command line that can be read. -/
def databaseOf (around : Surroundings) (words : List String) : Option String :=
  match Invocation.read around.environment words with
  | .error _ => none
  | .ok i => (i.places around.environment).database

/-- A text or events at a place that a run is to put a new database in the place of. -/
def Replaced (around : Surroundings) (words : List String) (fs : Files) (p : Path) : Prop :=
  ∃ i, Invocation.read around.environment words = .ok i ∧ i.action.replaces = true ∧
    Held (databaseOf around words) fs p

variable {around : Surroundings} {words : List String}

theorem run_of_read {i : Invocation} (hi : Invocation.read around.environment words = .ok i) :
    run around words fs =
      (.ok (i.outcome around ((i.perform around).on fs).1), ((i.perform around).on fs).2) := by
  rw [run, hi]
  rfl

theorem exitCode_kind_ne_zero (kind : FailureKind) : kind.exitCode ≠ 0 := by
  cases kind <;> decide

/-- The exit code tells whether what was asked for has failed. -/
theorem exitCode_run_ne_zero_iff {i : Invocation}
    (hi : Invocation.read around.environment words = .ok i) :
    exitCode (run around words fs).1 ≠ 0 ↔
      ∃ failure after, (i.perform around).on fs = (.error failure, after) := by
  rw [run_of_read hi]
  cases hon : (i.perform around).on fs with
  | mk result after =>
    cases result with
    | ok report =>
      refine iff_of_false (fun h => h rfl) ?_
      rintro ⟨failure, after', h⟩
      cases h
    | error failure => exact iff_of_true (exitCode_kind_ne_zero failure.kind) ⟨failure, after, rfl⟩

theorem fails_run (h : exitCode (run around words fs).1 ≠ 0) :
    KeptUnless (databaseOf around words) (Replaced around words) fs (run around words fs).2 := by
  cases hi : Invocation.read around.environment words with
  | error fault =>
    have hrun : (run around words fs).2 = fs := by rw [run, hi]
    rw [hrun]
    refine (Spared.refl _ fs).keptUnless ?_
    rintro p ⟨i, hread, -⟩
    cases hi.symm.trans hread
  | ok i =>
    have hdb : databaseOf around words = (i.places around.environment).database := by
      rw [databaseOf, hi]
    have hreplaced (p : Path) : Replaced around words fs p ↔
        i.action.replaces = true ∧ Held (i.places around.environment).database fs p := by
      simp only [Replaced, hi, hdb, Except.ok.injEq, exists_eq_left']
    obtain ⟨failure, after, hon⟩ := (exitCode_run_ne_zero_iff hi).1 h
    obtain ⟨hkeeps, hkept⟩ := fails_perform i around fs failure after hon
    rw [run_of_read hi, hon, hdb]
    exact ⟨hkeeps, fun p hp => (hkept p hp).trans (not_congr (hreplaced p)).symm⟩

/-- After a run that fails, every path that led to a place leads to it still. At every place that is
not beside the database, where the database itself never is, the text and the events are as they
were; except that a database which was to be replaced may be gone. -/
theorem failing_run_keeps_iff (h : exitCode (run around words fs).1 ≠ 0) :
    (∀ path p, fs.locate path = .ok p → (run around words fs).2.locate path = .ok p) ∧
    (∀ p, ¬ Beside (databaseOf around words) (run around words fs).2 p →
      (Kept fs (run around words fs).2 p ↔ ¬ Replaced around words fs p)) ∧
    (∀ path p, databaseOf around words = some path → fs.locate path = .ok p →
      ¬ Beside (databaseOf around words) (run around words fs).2 p) := by
  obtain ⟨hkeeps, hkept⟩ := fails_run h
  refine ⟨fun path p hl => hkeeps.locate hl, hkept, fun path p hdb hl => ?_⟩
  exact not_beside_of_locate hdb (hkeeps.locate hl)

/-! ## A run that fails -/

def viewed : Record :=
  [.integer 11644473600000000, .text "ad_notification", .text "view", .text "p", .text "c",
    .text "s", .text "k", .text "a", .text "", .text "", .text "", .text "https://brave.com/"]

/-- A settings file without settings. -/
def unsettled : Path × Node := (["config.json"], .text "nope")

/-- A database of one event beside it. -/
def oneView : Files :=
  ⟨[(["ads.db"], .database ⟨[⟨Store.layout, [viewed]⟩], []⟩), unsettled], []⟩

/-- The paths of both are given by variables. -/
def atHome : Surroundings :=
  ⟨[("ADH_DB", "ads.db"), ("ADH_CONFIG", "config.json")], .epoch, "id", false⟩

def actAtHome (action : Action) : Invocation :=
  ⟨action, some "ads.db", some "config.json", false, false, false⟩

theorem read_purge : Invocation.read atHome.environment ["purge"] = .ok (actAtHome .purge) := by
  cbv

theorem read_init_force :
    Invocation.read atHome.environment ["init", "--force"] = .ok (actAtHome (.create true)) := by
  cbv

theorem load_unsettled (hl : fs.locate "config.json" = .ok ["config.json"])
    (hn : fs.node? ["config.json"] = some unsettled.2) : Settings.load fs "config.json" =
      .error (.settings (.malformed "not a settings document")) := by
  have hfind := Files.find_eq_ok.2 ⟨hl, hn⟩
  have hread : fs.read "config.json" = .ok "nope" := by
    rw [Files.read, hfind]
    rfl
  have hnone : Settings.read "nope" =
      .error (.settings (.malformed "not a settings document")) := by cbv
  rw [Settings.load, Files.contains_iff.2 ⟨_, _, hl, hn⟩, hread]
  exact hnone

theorem databaseOf_atHome {action : Action}
    (hi : Invocation.read atHome.environment words = .ok (actAtHome action)) :
    databaseOf atHome words = some "ads.db" := by
  rw [databaseOf, hi]
  rfl

theorem rowsAt_oneView : oneView.rowsAt ["ads.db"] = [viewed] :=
  Store.Holds.eventRows_eq (List.find?_cons_of_pos (Sql.sameName_refl _))

theorem locate_oneView : oneView.locate "ads.db" = .ok ["ads.db"] := by cbv

theorem locate_settings : oneView.locate "config.json" = .ok ["config.json"] := by cbv

/-- A run that fails on the settings keeps the event, unless it is to replace the database. -/
theorem purge_keeps_oneView :
    exitCode (run atHome ["purge"] oneView).1 ≠ 0 ∧
      Kept oneView (run atHome ["purge"] oneView).2 ["ads.db"] := by
  have hpurge : ((actAtHome .purge).perform atHome).on oneView =
      (.error (.settings (.malformed "not a settings document")), oneView) := by
    have hload := loadSettings_on_of_error (load_unsettled locate_settings rfl)
    change (purge ⟨some "ads.db", some "config.json"⟩ .epoch).on oneView = _
    rw [purge, Work.on_bind_of_error hload]
  have hfails := (exitCode_run_ne_zero_iff read_purge).2 ⟨_, _, hpurge⟩
  obtain ⟨-, hkept, hbeside⟩ := failing_run_keeps_iff hfails
  have hplace := hbeside _ _ (databaseOf_atHome read_purge) locate_oneView
  refine ⟨hfails, (hkept _ hplace).2 ?_⟩
  rintro ⟨i, hread, hreplaces, -⟩
  cases read_purge.symm.trans hread
  cases hreplaces

/-- A run that is to replace the database has lost the event when it fails on the settings. -/
theorem init_force_loses_oneView :
    exitCode (run atHome ["init", "--force"] oneView).1 ≠ 0 ∧
      oneView.rowsAt ["ads.db"] = [viewed] ∧
      (run atHome ["init", "--force"] oneView).2.rowsAt ["ads.db"] = [] := by
  have hremove : oneView.remove "ads.db" = .ok ⟨[unsettled], []⟩ :=
    Files.remove_eq_ok.2 ⟨_, _, locate_oneView, rfl, by simp, rfl⟩
  have hcompanions : ∀ companion ∈ companions "ads.db",
      (⟨[unsettled], []⟩ : Files).contains companion = false := by
    intro companion hc
    obtain rfl | hc := List.mem_cons.1 hc
    · cbv
    · cases List.mem_singleton.1 hc
      cbv
  have hcreate : ((actAtHome (.create true)).perform atHome).on oneView =
      (.error (.settings (.malformed "not a settings document")), ⟨[unsettled], []⟩) :=
    create_on_of_unreadable _ hremove hcompanions (by cbv) (load_unsettled (by cbv) rfl)
  refine ⟨(exitCode_run_ne_zero_iff read_init_force).2 ⟨_, _, hcreate⟩, rowsAt_oneView, ?_⟩
  rw [run_of_read read_init_force, hcreate]
  rfl

end AdLedger.Cli
