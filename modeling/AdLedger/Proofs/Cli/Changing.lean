import AdLedger.Proofs.Cli.Export
import AdLedger.Proofs.Cli.Replacing
import AdLedger.Proofs.Settings.File

/-!
# Settings that are changed

New values go into the settings file in the place of those it says, if that makes usable settings
(`Settings.updated`). What is told is found by the handle that was made of the file before: the
changes are made known to it, and it reads the file again (`afterEvents_changes`). So it is what the
file says then, also where nothing or one of the two values has changed, or where what the file said
before was not usable (`settings_changed`).
-/

namespace AdLedger

namespace Settings

/-- Settings with other values in the place of those that are given. -/
def updated (s : Settings) (retentionDays batchSize : Option Nat) : Settings :=
  ⟨retentionDays.getD s.retentionDays, batchSize.getD s.batchSize⟩

theorem updated_updated (s : Settings) (retentionDays batchSize : Option Nat) :
    (s.updated retentionDays batchSize).updated retentionDays batchSize =
      s.updated retentionDays batchSize := by
  cases retentionDays <;> cases batchSize <;> rfl

end Settings

namespace Cli

open Store (Work)

variable {fs after : Files} {path : String} {old new : Settings} {failure : Failure}
  {retentionDays batchSize : Option Nat} {database : Option String}

/-! ## Changes that are made known -/

theorem changes_eq_nil_iff : changes old new = [] ↔ old = new := by
  obtain ⟨r, b⟩ := old
  obtain ⟨r', b'⟩ := new
  by_cases hr : r = r' <;> by_cases hb : b = b' <;> simp [changes, hr, hb]

theorem concerns_of_mem_changes {e : Event} (h : e ∈ changes old new) :
    SettingsHandle.concerns e = true := by
  have hname : ∃ name, e = .prefDidChange (SettingsHandle.preferencePrefix ++ name) := by
    simp only [changes, List.mem_append, List.mem_ite_nil_right, List.mem_singleton] at h
    obtain ⟨-, h⟩ | ⟨-, h⟩ := h <;> exact ⟨_, h⟩
  obtain ⟨name, rfl⟩ := hname
  refine String.startsWith_string_iff.2 ?_
  rw [String.toList_append]
  exact List.prefix_append _ _

/-- A handle that is told of a change of its preferences has what its file says, if that can be
used. -/
theorem observe_of_concerns (hl : Settings.load fs path = .ok new) (hu : new.Usable)
    (s : Settings) {e : Event} (he : SettingsHandle.concerns e = true) :
    (SettingsHandle.mk s (some path)).observe fs e = ⟨new, some path⟩ := by
  have htakes : (SettingsHandle.Placed.mk ⟨s, some path⟩ fs).Takes (.event e) new :=
    SettingsHandle.Placed.takes_event_iff.2
      ⟨he, SettingsHandle.Placed.takes_reload_iff.2 ⟨path, rfl, hl, hu⟩⟩
  exact congrArg SettingsHandle.Placed.handle (SettingsHandle.Placed.step_of_takes htakes).2

theorem afterEvents_eq_foldl (fs : Files) (handle : SettingsHandle) (events : List Event) :
    afterEvents fs handle events = events.foldl (fun h e => h.observe fs e) handle := by
  have hnotify : (Registry.empty.add ()).notify = fun e : Event => [((), e)] := rfl
  simp only [afterEvents, hnotify, ← List.map_eq_flatMap, List.foldl_map]

/-- Told of any number of such changes, it has what the file says. By induction on the events: what
it had before each of them is of no account. -/
theorem settings_foldl_observe (hl : Settings.load fs path = .ok new) (hu : new.Usable)
    {events : List Event} (h : ∀ e ∈ events, SettingsHandle.concerns e = true) (s : Settings) :
    (events.foldl (fun (h : SettingsHandle) e => h.observe fs e) ⟨s, some path⟩).settings =
      if events = [] then s else new := by
  induction events generalizing s with
  | nil => rfl
  | cons e events ih =>
    obtain ⟨he, hevents⟩ := List.forall_mem_cons.1 h
    rw [List.foldl_cons, observe_of_concerns hl hu s he, ih hevents, ite_self]
    rfl

/-- Once the changes have been made known, the settings in use are those of the file. -/
theorem afterEvents_changes (hl : Settings.load fs path = .ok new) (hu : new.Usable)
    (old : Settings) : (afterEvents fs ⟨old, some path⟩ (changes old new)).settings = new := by
  rw [afterEvents_eq_foldl, settings_foldl_observe hl hu fun _ => concerns_of_mem_changes]
  split
  next hnil => exact changes_eq_nil_iff.1 hnil
  next => rfl

/-! ## Changing the file -/

theorem loadSettings_on (h : Settings.load fs path = .ok old) :
    (loadSettings (some path)).on fs = (.ok ⟨old, some path⟩, fs) := by
  have hon : (loadSettings (some path)).on fs = (SettingsHandle.ofFile fs path, fs) := rfl
  rw [hon, SettingsHandle.ofFile, h]
  rfl

theorem located_on (fault : SettingsFault) (fs : Files) (path : String) :
    (located fault (some path)).on fs = (.ok path, fs) := rfl

/-- Settings that cannot be read are not changed. -/
theorem changeSettings_on_of_unreadable (h : Settings.load fs path = .error failure) :
    (changeSettings ⟨database, some path⟩ retentionDays batchSize).on fs =
      (.error failure, fs) := by
  rw [changeSettings, Work.on_bind_of_ok (located_on _ fs path),
    Work.on_bind_of_error (loadSettings_on_of_error h)]

/-- Nor are they changed to ones that cannot be used, or where they cannot be written. -/
theorem changeSettings_on_of_unsaved (hl : Settings.load fs path = .ok old)
    (hs : (old.updated retentionDays batchSize).save fs path = (.error failure, after)) :
    (changeSettings ⟨database, some path⟩ retentionDays batchSize).on fs =
      (.error failure, after) := by
  rw [changeSettings, Work.on_bind_of_ok (located_on _ fs path),
    Work.on_bind_of_ok (loadSettings_on hl)]
  exact Work.on_bind_of_error hs

/-- What has been written is what is told. -/
theorem changeSettings_on_of_saved (hl : Settings.load fs path = .ok old)
    (hs : (old.updated retentionDays batchSize).save fs path = (.ok (), after)) :
    (changeSettings ⟨database, some path⟩ retentionDays batchSize).on fs =
      (.ok (.inUse path (old.updated retentionDays batchSize)), after) := by
  obtain ⟨hu, hw⟩ := Settings.save_eq_ok_iff.1 hs
  have hsave : (saveSettings path (old.updated retentionDays batchSize)).on fs =
      (.ok (), after) := hs
  rw [changeSettings, Work.on_bind_of_ok (located_on _ fs path),
    Work.on_bind_of_ok (loadSettings_on hl)]
  refine (Work.on_bind_of_ok hsave).trans ?_
  rw [Work.on_bind_of_ok (get_on after), Work.on_pure]
  exact congrArg (fun told => (Except.ok (Report.inUse path told), after))
    (afterEvents_changes (hw.load_eq hu) hu old)

/-- How a change can go. -/
inductive Course (fs : Files) (path : String) (retentionDays batchSize : Option Nat) :
    Except Failure Report × Files → Prop where
  /-- There is a file that does not say settings. -/
  | unreadable {failure : Failure} (h : ∀ old, ¬ Settings.InFile fs path old) :
    Course fs path retentionDays batchSize (.error failure, fs)
  | unusable {failure : Failure} {old : Settings} (hold : Settings.InFile fs path old)
    (h : ¬ (old.updated retentionDays batchSize).Usable) :
    Course fs path retentionDays batchSize (.error failure, fs)
  | unwritable {failure : Failure} {after : Files} (h : ¬ Settings.Writable fs path)
    (hgrown : fs.Grown after) : Course fs path retentionDays batchSize (.error failure, after)
  | changed {old : Settings} {after : Files} (hold : Settings.InFile fs path old)
    (hu : (old.updated retentionDays batchSize).Usable)
    (hw : (old.updated retentionDays batchSize).Written fs path after) :
    Course fs path retentionDays batchSize
      (.ok (.inUse path (old.updated retentionDays batchSize)), after)

theorem course_changeSettings (fs : Files) (path : String) (database : Option String)
    (retentionDays batchSize : Option Nat) : Course fs path retentionDays batchSize
      ((changeSettings ⟨database, some path⟩ retentionDays batchSize).on fs) := by
  cases hl : Settings.load fs path with
  | error failure =>
    rw [changeSettings_on_of_unreadable hl]
    refine .unreadable fun old hold => ?_
    cases hl.symm.trans (Settings.load_eq_ok_iff.2 hold)
  | ok old =>
    have hold := Settings.load_eq_ok_iff.1 hl
    by_cases hu : (old.updated retentionDays batchSize).Usable
    · cases hs : (old.updated retentionDays batchSize).save fs path with
      | mk result after =>
        cases result with
        | ok =>
          rw [changeSettings_on_of_saved hl hs]
          exact .changed hold hu (Settings.save_eq_ok_iff.1 hs).2
        | error failure =>
          rw [changeSettings_on_of_unsaved hl hs]
          refine .unwritable (fun hw => ?_) (fails_saveSettings _ _ _ _ _ hs)
          obtain ⟨written, hwritten⟩ := Settings.exists_written_iff.2 hw
          cases hs.symm.trans (Settings.save_eq_ok_iff.2 ⟨hu, hwritten⟩)
    · obtain ⟨failure, hs⟩ : ∃ failure, (old.updated retentionDays batchSize).save fs path =
          (.error failure, fs) := Settings.save_of_not_usable hu
      rw [changeSettings_on_of_unsaved hl hs]
      exact .unusable hold hu

/-- The same new values once more change nothing, and the same settings are told. -/
theorem changeSettings_on_again (hu : (old.updated retentionDays batchSize).Usable)
    (hw : (old.updated retentionDays batchSize).Written fs path after) :
    (changeSettings ⟨database, some path⟩ retentionDays batchSize).on after =
      (.ok (.inUse path (old.updated retentionDays batchSize)), after) := by
  have hupdated := old.updated_updated retentionDays batchSize
  have hsaved : ((old.updated retentionDays batchSize).updated retentionDays batchSize).save after
      path = (.ok (), after) := by
    rw [hupdated]
    exact Settings.save_eq_ok_iff.2 ⟨hu, hw.again⟩
  rw [changeSettings_on_of_saved (hw.load_eq hu) hsaved, hupdated]

/-- The settings in what was printed of those in use. -/
def printedSettings? (text : String) : Option Settings := (Json.read? text).bind Settings.ofJson?

theorem printedSettings?_inUse (h : new.Usable) (styled : Bool) :
    printedSettings? (Report.render true styled (.inUse path new)) = some new := by
  have hcomposed : (Json.record (("path", .ofString path) :: new.members)).Composed := by
    refine .record fun m hm => ?_
    obtain rfl | hm := List.mem_cons.1 hm
    · exact .string _
    · exact Settings.composed_of_mem_members hm
  rw [printedSettings?, read?_render rfl hcomposed, Option.bind_some]
  exact Settings.ofJson?_record h (by simp [Settings.members]) fun _ => List.mem_cons_of_mem _

/-- The two settings in the lines that tell of those in use. -/
def settingsTold? : List String → Option Settings
  | [_, retention, batch] => do
    return ⟨← numberAfter? "  retention_period_days: " retention,
      ← numberAfter? "  batch_size:            " batch⟩
  | _ => none

theorem settingsTold?_inUse (path : String) (s : Settings) (style : Style → String → String) :
    settingsTold? ((Report.inUse path s).lines style) = some s := by
  have hretention : numberAfter? "  retention_period_days: "
      s!"  retention_period_days: {Text.natural s.retentionDays}" = some s.retentionDays :=
    numberAfter?_append_natural _ _
  have hbatch : numberAfter? "  batch_size:            "
      s!"  batch_size:            {Text.natural s.batchSize}" = some s.batchSize :=
    numberAfter?_append_natural _ _
  rw [Report.lines, settingsTold?, hretention, hbatch]
  rfl

/-- What new values in a settings file come to. They are put there if and only if the file can be
written, says settings or is not there, and the new values make usable settings of these. -/
structure Changing (fs : Files) (path : String) (retentionDays batchSize : Option Nat)
    (change : Work Files Report) : Prop where
  succeeds : (∃ report after, change.on fs = (.ok report, after)) ↔ Settings.Writable fs path ∧
    ∃ old, Settings.InFile fs path old ∧ (old.updated retentionDays batchSize).validate = .ok ()
  /-- The settings in the file are then the ones told and the ones printed, as a document and as
  lines, and the same new values once more change nothing. -/
  changed : ∀ old report after, Settings.InFile fs path old → change.on fs = (.ok report, after) →
    Settings.load after path = .ok (old.updated retentionDays batchSize) ∧
    report = .inUse path (old.updated retentionDays batchSize) ∧
    (∀ styled, printedSettings? (report.render true styled) =
      some (old.updated retentionDays batchSize)) ∧
    (∀ style, settingsTold? (report.lines style) = some (old.updated retentionDays batchSize)) ∧
    change.on after = (.ok report, after)
  /-- After a failure there may be more directories where the file cannot be written, and nothing
  else has happened. -/
  failed : ∀ failure after, change.on fs = (.error failure, after) →
    fs.Grown after ∧ (Settings.Writable fs path → after = fs)

/-- New values are put into a settings file, or it is left as it is. -/
theorem settings_changed (fs : Files) (path : String) (database : Option String)
    (retentionDays batchSize : Option Nat) :
    Changing fs path retentionDays batchSize
      (changeSettings ⟨database, some path⟩ retentionDays batchSize) := by
  have hcourse := course_changeSettings fs path database retentionDays batchSize
  constructor
  case succeeds =>
    constructor
    · rintro ⟨report, after, hon⟩
      rw [hon] at hcourse
      cases hcourse with
      | changed hold hu hw =>
        exact ⟨Settings.exists_written_iff.1 ⟨_, hw⟩, _, hold, Settings.validate_eq_ok_iff.2 hu⟩
    · rintro ⟨hwritable, old, hold, hvalid⟩
      generalize (changeSettings ⟨database, some path⟩ retentionDays batchSize).on fs = run
        at hcourse ⊢
      cases hcourse with
      | unreadable h => exact absurd hold (h old)
      | unusable hold' hu =>
        obtain rfl := hold.unique hold'
        exact absurd (Settings.validate_eq_ok_iff.1 hvalid) hu
      | unwritable h => exact absurd hwritable h
      | changed => exact ⟨_, _, rfl⟩
  case changed =>
    intro old report after hold hon
    rw [hon] at hcourse
    cases hcourse with
    | changed hold' hu hw =>
      obtain rfl := hold.unique hold'
      exact ⟨hw.load_eq hu, rfl, printedSettings?_inUse hu, settingsTold?_inUse path _,
        changeSettings_on_again hu hw⟩
  case failed =>
    intro failure after hon
    rw [hon] at hcourse
    cases hcourse with
    | unreadable => exact ⟨.refl fs, fun _ => rfl⟩
    | unusable => exact ⟨.refl fs, fun _ => rfl⟩
    | unwritable h hgrown => exact ⟨hgrown, fun hwritable => absurd hwritable h⟩

/-- A batch size alone is given where there is no settings file yet. -/
theorem batch_size_changed :
    let change := changeSettings ⟨none, some "config.json"⟩ none (some 10)
    let report := Report.inUse "config.json" ⟨30, 10⟩
    ∃ after, change.on ⟨[], []⟩ = (.ok report, after) ∧
      Settings.load after "config.json" = .ok ⟨30, 10⟩ ∧
      printedSettings? (report.render true false) = some ⟨30, 10⟩ ∧
      change.on after = (.ok report, after) := by
  intro change report
  have hchanging := settings_changed ⟨[], []⟩ "config.json" none none (some 10)
  have hmissing : Settings.InFile ⟨[], []⟩ "config.json" .standard := .missing (by cbv)
  have hwritable : Settings.Writable ⟨[], []⟩ "config.json" := by
    refine ⟨⟨[], []⟩, by cbv, fun content => ?_⟩
    exact ⟨_, Files.write_eq_ok.2 ⟨["config.json"], by cbv, by cbv, by cbv, rfl⟩⟩
  obtain ⟨told, after, hon⟩ := hchanging.succeeds.2 ⟨hwritable, _, hmissing, rfl⟩
  obtain ⟨hload, rfl, hprinted, -, hagain⟩ := hchanging.changed _ told after hmissing hon
  exact ⟨after, hon, hload, hprinted false, hagain⟩

end Cli
end AdLedger
