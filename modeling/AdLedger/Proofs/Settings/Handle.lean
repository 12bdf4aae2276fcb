import AdLedger.Settings.Handle

/-!
# Settings in use

A handle and its file through any acts: settings are set, the files are changed by others, the file
is read again, events arrive. The settings in use are those of the last act that brought usable
ones, and those the handle began with if there was none (`run_settings`). The clones of a handle
share its settings and its file, so that an act on one of them is an act on the handle.
-/

namespace AdLedger

namespace Settings

theorem validate_eq_ok_iff {s : Settings} : s.validate = .ok () ↔ s.Usable := by
  rw [← fault?_eq_none_iff, validate]
  cases s.fault? <;> simp

/-- What a member of a document says of a number of at most `bits` bits: the default if the member
is absent. -/
inductive Stated (bits default : Nat) : Option Json → Nat → Prop
  | absent : Stated bits default none default
  | given {j : Json} {n : Nat} (number : j.nat? = some n) (fits : n < Nat.pow 2 bits) :
      Stated bits default (some j) n

theorem number?_eq_some_iff {bits default : Nat} {found : Option Json} {n : Nat} :
    number? bits default found = some n ↔ Stated bits default found n := by
  constructor
  · intro h
    cases found with
    | none =>
      obtain rfl := Option.some.inj h
      exact .absent
    | some j =>
      obtain ⟨hn, hlt⟩ := Option.filter_eq_some_iff.1 h
      exact .given hn (of_decide_eq_true hlt)
  · rintro (_ | ⟨hn, hlt⟩)
    · rfl
    · exact Option.filter_eq_some_iff.2 ⟨hn, decide_eq_true hlt⟩

/-- What the file that a path leads to says: the usual settings where there is no file, and also for
each member that the document in the file has not. -/
inductive InFile (fs : Files) (path : String) : Settings → Prop
  | missing (absent : fs.contains path = false) : InFile fs path standard
  | stated {content : String} {document : Json} {retention batch : Option Json} {s : Settings}
      (content_eq : fs.read path = .ok content) (document_eq : Json.read? content = some document)
      (fields : document.fields? ["retention_period_days", "batch_size"] =
        some [retention, batch])
      (retention_stated : Stated 32 defaultRetentionDays retention s.retentionDays)
      (batch_stated : Stated 64 defaultBatchSize batch s.batchSize) : InFile fs path s

theorem ofJson?_eq_some_iff {document : Json} {s : Settings} :
    ofJson? document = some s ↔ ∃ retention batch,
      document.fields? ["retention_period_days", "batch_size"] = some [retention, batch] ∧
      Stated 32 defaultRetentionDays retention s.retentionDays ∧
      Stated 64 defaultBatchSize batch s.batchSize := by
  simp only [← number?_eq_some_iff]
  unfold ofJson?
  constructor
  · intro h
    obtain ⟨found, hfound, h⟩ := Option.bind_eq_some_iff.1 h
    split at h
    next retention batch =>
      obtain ⟨r, hr, h⟩ := Option.bind_eq_some_iff.1 h
      obtain ⟨b, hb, h⟩ := Option.bind_eq_some_iff.1 h
      obtain rfl := Option.some.inj h
      exact ⟨retention, batch, hfound, hr, hb⟩
    next => exact nomatch h
  · rintro ⟨retention, batch, hfound, hr, hb⟩
    simp [hfound, hr, hb]

theorem read_eq_ok_iff {content : String} {s : Settings} :
    read content = .ok s ↔ ∃ document, Json.read? content = some document ∧
      ofJson? document = some s := by
  rw [← Option.bind_eq_some_iff, read]
  cases (Json.read? content).bind ofJson? <;> simp

theorem contains_of_read {fs : Files} {path content : String} (h : fs.read path = .ok content) :
    fs.contains path = true := by
  unfold Files.read at h
  unfold Files.contains
  cases hf : fs.find path with
  | error fault => rw [hf] at h; exact nomatch h
  | ok found => rfl

/-- A file is loaded if and only if it says settings, and these are what is loaded. -/
theorem load_eq_ok_iff {fs : Files} {path : String} {s : Settings} :
    load fs path = .ok s ↔ InFile fs path s := by
  unfold load
  constructor
  · intro h
    split at h
    next absent =>
      obtain rfl := Except.ok.inj h
      exact .missing (by simpa using absent)
    next =>
      split at h
      next => exact nomatch h
      next content hcontent =>
        obtain ⟨document, hdocument, hs⟩ := read_eq_ok_iff.1 h
        obtain ⟨retention, batch, hfields, hr, hb⟩ := ofJson?_eq_some_iff.1 hs
        exact .stated hcontent hdocument hfields hr hb
  · rintro (absent | ⟨hcontent, hdocument, hfields, hr, hb⟩)
    · rw [absent]
      rfl
    · rw [contains_of_read hcontent, hcontent]
      exact read_eq_ok_iff.2 ⟨_, hdocument, ofJson?_eq_some_iff.2 ⟨_, _, hfields, hr, hb⟩⟩

end Settings

namespace SettingsHandle

theorem concerns_eq_true_iff {e : Event} :
    concerns e = true ↔
      ∃ path, e = .prefDidChange path ∧ path.startsWith preferencePrefix = true := by
  cases e <;> simp [concerns]

/-- A handle begins with what its file says, usable or not. -/
theorem ofFile_eq_ok_iff {fs : Files} {path : String} {h : SettingsHandle} :
    ofFile fs path = .ok h ↔ Settings.InFile fs path h.settings ∧ h.path = some path := by
  rw [← Settings.load_eq_ok_iff, ofFile]
  obtain ⟨settings, own⟩ := h
  cases Settings.load fs path with
  | error failure => exact ⟨nofun, fun h => nomatch h.1⟩
  | ok s =>
    simp only [bind, Except.bind, pure, Except.pure, Except.ok.injEq, mk.injEq]
    exact and_congr_right fun _ => eq_comm

/-- A handle, and the files among which its own may be. -/
structure Placed where
  handle : SettingsHandle
  files : Files

/-- What may happen to a handle and its file. -/
inductive Act where
  | set (settings : Settings)
  /-- Others have done anything to the files. -/
  | change (files : Files)
  | reload
  | event (event : Event)

namespace Placed

def step (p : Placed) : Act → Placed
  | .set settings => { p with handle := (p.handle.set settings).2 }
  | .change files => { p with files }
  | .reload => { p with handle := (p.handle.reload p.files).2 }
  | .event event => { p with handle := p.handle.observe p.files event }

def run (p : Placed) (acts : List Act) : Placed := acts.foldl step p

/-- Whether an act succeeds. Only setting and reading again can fail. -/
def result (p : Placed) : Act → Except Failure Unit
  | .set settings => (p.handle.set settings).1
  | .reload => (p.handle.reload p.files).1
  | _ => .ok ()

/-- The settings that an act brings, usable or not. -/
inductive Brings (p : Placed) : Act → Settings → Prop
  | set (settings : Settings) : Brings p (.set settings) settings
  | reload {path : String} {settings : Settings} (path_eq : p.handle.path = some path)
      (stated : Settings.InFile p.files path settings) : Brings p .reload settings
  | event {preference path : String} {settings : Settings}
      (own : preference.startsWith "ad_history." = true) (path_eq : p.handle.path = some path)
      (stated : Settings.InFile p.files path settings) :
      Brings p (.event (.prefDidChange preference)) settings

/-- The settings that an act puts in the place of those in use. -/
def Takes (p : Placed) (act : Act) (settings : Settings) : Prop :=
  p.Brings act settings ∧ settings.Usable

/-! ## One act -/

variable {p : Placed} {act : Act} {s : Settings}

theorem takes_set_iff {settings : Settings} :
    p.Takes (.set settings) s ↔ settings = s ∧ s.Usable := by
  constructor
  · rintro ⟨⟨⟩, usable⟩
    exact ⟨rfl, usable⟩
  · rintro ⟨rfl, usable⟩
    exact ⟨.set _, usable⟩

theorem takes_reload_iff :
    p.Takes .reload s ↔
      ∃ path, p.handle.path = some path ∧ Settings.load p.files path = .ok s ∧ s.Usable := by
  simp only [Settings.load_eq_ok_iff]
  constructor
  · rintro ⟨⟨⟩, usable⟩
    exact ⟨_, ‹_›, ‹_›, usable⟩
  · rintro ⟨path, path_eq, stated, usable⟩
    exact ⟨.reload path_eq stated, usable⟩

theorem takes_event_iff {e : Event} :
    p.Takes (.event e) s ↔ concerns e = true ∧ p.Takes .reload s := by
  rw [concerns_eq_true_iff]
  constructor
  · intro ⟨brings, usable⟩
    cases brings with
    | event own path_eq stated => exact ⟨⟨_, rfl, own⟩, .reload path_eq stated, usable⟩
  · rintro ⟨⟨_, rfl, own⟩, brings, usable⟩
    cases brings with
    | reload path_eq stated => exact ⟨.event own path_eq stated, usable⟩

theorem step_event (e : Event) :
    p.step (.event e) = if concerns e then p.step .reload else p := by
  simp only [step, observe]
  split <;> rfl

/-- What setting makes of a handle. -/
theorem set_cases (h : SettingsHandle) (s : Settings) :
    s.Usable ∧ h.set s = (.ok (), { h with settings := s }) ∨
      ¬ s.Usable ∧ ∃ failure, h.set s = (.error failure, h) := by
  rw [← Settings.validate_eq_ok_iff]
  unfold SettingsHandle.set
  cases s.validate with
  | ok => exact .inl ⟨rfl, rfl⟩
  | error failure => exact .inr ⟨nofun, failure, rfl⟩

/-- What reading the file again makes of a handle. -/
theorem reload_cases (p : Placed) :
    p.handle.path = none ∧ p.handle.reload p.files = (.ok (), p.handle) ∨
      (∃ s, p.Takes .reload s ∧
        p.handle.reload p.files = (.ok (), { p.handle with settings := s })) ∨
      p.handle.path ≠ none ∧ (∀ s, ¬ p.Takes .reload s) ∧
        ∃ failure, p.handle.reload p.files = (.error failure, p.handle) := by
  obtain ⟨⟨settings, path⟩, files⟩ := p
  simp only [takes_reload_iff]
  cases path with
  | none => exact .inl ⟨rfl, rfl⟩
  | some path =>
    right
    cases hl : Settings.load files path with
    | error failure => exact .inr ⟨nofun, by simp [hl], failure, by simp [reload, hl]⟩
    | ok s =>
      obtain ⟨usable, hs⟩ | ⟨unusable, failure, hs⟩ := set_cases ⟨settings, some path⟩ s
      · exact .inl ⟨s, ⟨path, rfl, hl, usable⟩, by simp [reload, hl, hs]⟩
      · exact .inr ⟨nofun, by simpa [hl] using unusable, failure, by simp [reload, hl, hs]⟩

theorem takes_reload_unique {t : Settings} (h : p.Takes .reload s) (h' : p.Takes .reload t) :
    s = t := by
  obtain ⟨path, path_eq, load_eq, -⟩ := takes_reload_iff.1 h
  obtain ⟨path', path_eq', load_eq', -⟩ := takes_reload_iff.1 h'
  obtain rfl := Option.some.inj (path_eq.symm.trans path_eq')
  exact Except.ok.inj (load_eq.symm.trans load_eq')

/-- An act that brings usable settings succeeds and puts them in use. -/
theorem step_of_takes (h : p.Takes act s) :
    p.result act = .ok () ∧ p.step act = { p with handle := { p.handle with settings := s } } := by
  have reloaded {t : Settings} (ht : p.Takes .reload t) :
      p.handle.reload p.files = (.ok (), { p.handle with settings := t }) := by
    obtain ⟨hpath, -⟩ | ⟨u, hu, heq⟩ | ⟨-, hnone, -⟩ := p.reload_cases
    · obtain ⟨path, path_eq, -⟩ := takes_reload_iff.1 ht
      exact nomatch hpath.symm.trans path_eq
    · rw [heq, takes_reload_unique ht hu]
    · exact absurd ht (hnone t)
  cases act with
  | set settings =>
    obtain ⟨rfl, usable⟩ := takes_set_iff.1 h
    obtain ⟨-, heq⟩ | ⟨unusable, -⟩ := set_cases p.handle settings
    · simp [result, step, heq]
    · exact absurd usable unusable
  | change files => exact nomatch h.1
  | reload => simp [result, step, reloaded h]
  | event e =>
    obtain ⟨own, ht⟩ := takes_event_iff.1 h
    rw [step_event, if_pos own]
    simp [result, step, reloaded ht]

/-- Any other act leaves the handle as it was. -/
theorem step_of_not_takes (h : ∀ s, ¬ p.Takes act s) : (p.step act).handle = p.handle := by
  have kept (hn : ∀ t, ¬ p.Takes .reload t) : (p.step .reload).handle = p.handle := by
    obtain ⟨-, heq⟩ | ⟨t, ht, -⟩ | ⟨-, -, failure, heq⟩ := p.reload_cases
    · simp [step, heq]
    · exact absurd ht (hn t)
    · simp [step, heq]
  cases act with
  | set settings =>
    obtain ⟨usable, -⟩ | ⟨-, failure, heq⟩ := set_cases p.handle settings
    · exact absurd (takes_set_iff.2 ⟨rfl, usable⟩) (h settings)
    · simp [step, heq]
  | change files => rfl
  | reload => exact kept h
  | event e =>
    rw [step_event]
    split
    next own => exact kept fun t ht => h t (takes_event_iff.2 ⟨own, ht⟩)
    next => rfl

theorem result_set_eq_ok_iff {settings : Settings} :
    p.result (.set settings) = .ok () ↔ settings.Usable := by
  obtain ⟨usable, heq⟩ | ⟨unusable, failure, heq⟩ := set_cases p.handle settings <;>
    simp [result, *]

/-- Reading again succeeds also where there is no file to read. -/
theorem result_reload_eq_ok_iff :
    p.result .reload = .ok () ↔ p.handle.path = none ∨ ∃ s, p.Takes .reload s := by
  obtain ⟨hpath, heq⟩ | ⟨s, hs, heq⟩ | ⟨hpath, hnone, failure, heq⟩ := p.reload_cases
  · simp [result, heq, hpath]
  · simp only [result, heq, true_iff]
    exact .inr ⟨s, hs⟩
  · simp [result, heq, hpath, hnone]

/-- What fails changes nothing at all. -/
theorem step_of_result_eq_error {failure : Failure} (h : p.result act = .error failure) :
    p.step act = p := by
  have hn : ∀ s, ¬ p.Takes act s := fun s hs => nomatch h.symm.trans (step_of_takes hs).1
  have hhandle := step_of_not_takes hn
  cases act with
  | change files => exact nomatch h
  | event e => exact nomatch h
  | _ =>
    simp only [step] at hhandle ⊢
    rw [hhandle]

theorem path_step (p : Placed) (act : Act) : (p.step act).handle.path = p.handle.path := by
  by_cases h : ∃ s, p.Takes act s
  · obtain ⟨s, hs⟩ := h
    rw [(step_of_takes hs).2]
  · rw [step_of_not_takes (not_exists.1 h)]

/-! ## Any acts -/

/-- No act of a run brings usable settings. -/
def Quiet (p : Placed) : List Act → Prop
  | [] => True
  | act :: acts => (∀ s, ¬ p.Takes act s) ∧ (p.step act).Quiet acts

theorem run_cons (p : Placed) (act : Act) (acts : List Act) :
    p.run (act :: acts) = (p.step act).run acts := rfl

theorem run_append (p : Placed) (acts more : List Act) :
    p.run (acts ++ more) = (p.run acts).run more := List.foldl_append

theorem path_run (p : Placed) (acts : List Act) : (p.run acts).handle.path = p.handle.path := by
  induction acts generalizing p with
  | nil => rfl
  | cons act acts ih => rw [run_cons, ih, path_step]

/-- The settings in use are those that the last act to bring usable ones has brought; where no act
has, they are those of the beginning. -/
theorem run_settings (p : Placed) (acts : List Act) :
    p.Quiet acts ∧ (p.run acts).handle.settings = p.handle.settings ∨
      ∃ before act rest, acts = before ++ act :: rest ∧
        (p.run before).Takes act (p.run acts).handle.settings ∧
        (p.run (before ++ [act])).Quiet rest := by
  induction acts generalizing p with
  | nil => exact .inl ⟨trivial, rfl⟩
  | cons act acts ih =>
    rw [run_cons]
    obtain ⟨hquiet, heq⟩ | ⟨before, last, rest, rfl, htakes, hquiet⟩ := ih (p.step act)
    · by_cases h : ∃ s, p.Takes act s
      · obtain ⟨s, hs⟩ := h
        refine .inr ⟨[], act, acts, rfl, ?_, hquiet⟩
        rw [heq, (step_of_takes hs).2]
        exact hs
      · refine .inl ⟨⟨not_exists.1 h, hquiet⟩, ?_⟩
        rw [heq, step_of_not_takes (not_exists.1 h)]
    · exact .inr ⟨act :: before, last, rest, rfl, htakes, hquiet⟩

/-- Once usable settings have been taken, those in use are usable. -/
theorem usable_run_of_takes {before rest : List Act} (h : (p.run before).Takes act s) :
    (p.run (before ++ act :: rest)).handle.settings.Usable := by
  rw [run_append, run_cons]
  obtain ⟨-, heq⟩ | ⟨_, _, _, -, htakes, -⟩ := ((p.run before).step act).run_settings rest
  · rw [heq, (step_of_takes h).2]
    exact h.2
  · exact htakes.2

/-- What holds of the settings in use after acts, and of each act that may come next. -/
structure Governed (p : Placed) (acts : List Act) : Prop where
  /-- Usable settings that an act brings are put in use, and the act succeeds. -/
  taken : ∀ act s, (p.run acts).Brings act s → s.validate = .ok () →
    (p.run acts).result act = .ok () ∧ ((p.run acts).step act).handle.settings = s
  /-- Nothing else changes those in use. -/
  changed : ∀ act, ((p.run acts).step act).handle.settings ≠ (p.run acts).handle.settings →
    (p.run acts).Brings act ((p.run acts).step act).handle.settings ∧
      ((p.run acts).step act).handle.settings.validate = .ok ()
  /-- Settings are set only if they are usable. -/
  set_succeeds : ∀ settings,
    (p.run acts).result (.set settings) = .ok () ↔ settings.validate = .ok ()
  /-- Where there is a file, it is read again only if it says usable settings. -/
  reload_succeeds : (p.run acts).result .reload = .ok () ↔ p.handle.path = none ∨
    ∃ s, (p.run acts).Brings .reload s ∧ s.validate = .ok ()
  /-- What fails leaves all as it was. -/
  failed : ∀ act failure, (p.run acts).result act = .error failure →
    (p.run acts).step act = p.run acts
  /-- From the first change on those in use are usable. -/
  usable : ∀ before act rest s, acts = before ++ act :: rest → (p.run before).Brings act s →
    s.validate = .ok () → (p.run acts).handle.settings.validate = .ok ()
  batchSize_pos : 0 < (p.run acts).handle.batchSize
  batchSize_le : (p.run acts).handle.batchSize ≤ Settings.maxBatchSize
  batchSize_eq : (p.run acts).handle.settings.validate = .ok () →
    (p.run acts).handle.batchSize = (p.run acts).handle.settings.batchSize

/-- However a handle came about, and whatever happens to it and to its file. -/
theorem governed (p : Placed) (acts : List Act) : p.Governed acts where
  taken act s brings valid := by
    have h := step_of_takes ⟨brings, Settings.validate_eq_ok_iff.1 valid⟩
    exact ⟨h.1, by rw [h.2]⟩
  changed act hne := by
    by_cases h : ∃ s, (p.run acts).Takes act s
    · obtain ⟨s, hs⟩ := h
      rw [(step_of_takes hs).2]
      exact ⟨hs.1, Settings.validate_eq_ok_iff.2 hs.2⟩
    · exact absurd (congrArg settings (step_of_not_takes (not_exists.1 h))) hne
  set_succeeds _ := result_set_eq_ok_iff.trans Settings.validate_eq_ok_iff.symm
  reload_succeeds := by
    rw [result_reload_eq_ok_iff, path_run]
    simp only [Takes, Settings.validate_eq_ok_iff]
  failed _ _ := step_of_result_eq_error
  usable before act rest s hacts brings valid := by
    subst hacts
    exact Settings.validate_eq_ok_iff.2
      (usable_run_of_takes ⟨brings, Settings.validate_eq_ok_iff.1 valid⟩)
  batchSize_pos := Settings.effectiveBatchSize_pos _
  batchSize_le := Settings.effectiveBatchSize_le _
  batchSize_eq valid := (Settings.validate_eq_ok_iff.1 valid).effectiveBatchSize_eq

/-- A handle that is made from a file has what the file said then, until an act brings it other
settings that are usable. -/
theorem run_settings_ofFile {fs files : Files} {path : String} {h : SettingsHandle}
    (hfile : ofFile fs path = .ok h) (acts : List Act) :
    Quiet ⟨h, files⟩ acts ∧
        Settings.InFile fs path (run ⟨h, files⟩ acts).handle.settings ∨
      ∃ before act rest, acts = before ++ act :: rest ∧
        (run ⟨h, files⟩ before).Takes act (run ⟨h, files⟩ acts).handle.settings ∧
        (run ⟨h, files⟩ (before ++ [act])).Quiet rest := by
  refine (run_settings ⟨h, files⟩ acts).imp_left fun ⟨hquiet, heq⟩ => ⟨hquiet, ?_⟩
  rw [heq]
  exact (ofFile_eq_ok_iff.1 hfile).1

end Placed
end SettingsHandle
end AdLedger
