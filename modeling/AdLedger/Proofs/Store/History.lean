import AdLedger.Proofs.Store.Opening
import AdLedger.Proofs.Url.FileHost
import AdLedger.Settings.Handle

/-!
# Ledgers in use

A ledger that has been opened (`Session`) beside a list of entries (`Ideal`), and any uses of the
two, one after the other. The rows of the ledger are those of the entries after every run
(`Represents.run`). The ledger answers as the entries say, but with the target that the text of an
item's target reads as; so it gives back what was saved if and only if the targets of valid items
are kept.
-/

namespace AdLedger.Store

open Sql
open Time (Instant)

/-- What can be done with a ledger that has been opened. -/
inductive Use where
  | save (items : List Item)
  | purge (now : Instant)
  | set (settings : Settings)
  | reopen (handle : SettingsHandle) (now : Instant)
  | inRange (start finish : Instant)
  | best (start finish : Instant)
  | ofCreative (id : String)

/-- The items that uses are given to save, valid or not. -/
def savedIn (uses : List Use) : List Item :=
  uses.flatMap fun
    | .save items => items
    | _ => []

/-! ## Sessions -/

/-- A ledger in use: the settings in effect, and the database. -/
structure Session where
  handle : SettingsHandle
  db : Database

namespace Session

/-- Does work with the database. -/
def work (s : Session) (w : Work Database (List Item)) : Except Failure (List Item) × Session :=
  ((w.on s.db).1, { s with db := (w.on s.db).2 })

/-- The items that a use gives, and the ledger after it. -/
def use (s : Session) : Use → Except Failure (List Item) × Session
  | .save items => s.work do save s.handle.settings items; return []
  | .purge now => s.work do purge s.handle.settings now; return []
  | .set settings =>
    ((s.handle.set settings).1.map fun _ => [], { s with handle := (s.handle.set settings).2 })
  | .reopen handle now => { s with handle }.work do let _ ← openLedger now; return []
  | .inRange start finish => s.work (itemsInRange start finish)
  | .best start finish => s.work (bestInRange start finish)
  | .ofCreative id => s.work (itemsOfCreative id)

/-- The ledger after uses, one after the other. -/
def after (s : Session) (uses : List Use) : Session := uses.foldl (fun s u => (s.use u).2) s

def start (handle : SettingsHandle) (now : Instant) : Session :=
  ⟨handle, ((openLedger now : Work Database SchemaVersion).on Database.empty).2⟩

end Session

theorem Holds.use_inRange {s : Session} {rows : List Record} (h : Holds s.db rows)
    (first last : Instant) :
    s.use (.inRange first last) = (.ok (itemsOf (newest (inSpan first last rows))), s) := by
  simp only [Session.use, Session.work, itemsInRange_on h]

theorem Holds.use_best {s : Session} {rows : List Record} (h : Holds s.db rows)
    (first last : Instant) :
    s.use (.best first last) = (.ok (itemsOf (newest (bestOf (inSpan first last rows)))), s) := by
  simp only [Session.use, Session.work, bestInRange_on h]

/-! ## Ideal ledgers -/

/-- The settings in effect, and the entries of the items saved and not yet purged, in order. -/
structure Ideal where
  handle : SettingsHandle
  entries : List Entry

namespace Ideal

/-- The entries between two times, both included. -/
def span (m : Ideal) (start finish : Instant) : List Entry :=
  m.entries.filter fun e => start.toPlatform ≤ e.time ∧ e.time ≤ finish.toPlatform

def ofCreative (m : Ideal) (id : String) : List Entry :=
  m.entries.filter fun e => e.item.creativeInstanceId = id

/-- Saving adds the valid items, and purging takes away what is as old as the cutoff, or older. -/
def use (m : Ideal) : Use → Ideal
  | .save items => { m with entries := m.entries ++ entriesOf items }
  | .purge now =>
    match m.handle.settings.cutoff now with
    | .ok cutoff => { m with entries := m.entries.filter fun e => ¬ e.time ≤ cutoff.toPlatform }
    | .error _ => m
  | .set settings => { m with handle := (m.handle.set settings).2 }
  | .reopen handle _ => { m with handle }
  | _ => m

def after (m : Ideal) (uses : List Use) : Ideal := uses.foldl use m

def start (handle : SettingsHandle) : Ideal := ⟨handle, []⟩

end Ideal

/-- Entries with the newest first. -/
def NewestFirst (entries : List Entry) : Prop := entries.Pairwise fun d e => e.time ≤ d.time

/-- What a ledger answers to each use, where `give` are the items that it gives for entries. -/
structure Answers (give : List Entry → List Item) (s : Session) (m : Ideal) : Prop where
  /-- Saving never fails. -/
  save : ∀ items, (s.use (.save items)).1 = .ok []
  /-- Purging fails for want of a cutoff only, and then changes nothing. -/
  purge : ∀ now, match m.handle.settings.cutoff now with
    | .ok _ => (s.use (.purge now)).1 = .ok []
    | .error failure => s.use (.purge now) = (.error failure, s)
  /-- Opening the ledger again changes nothing but the settings. -/
  reopen : ∀ handle now, s.use (.reopen handle now) = (.ok [], { s with handle })
  /-- Each entry of a range is given once, the newest first. -/
  inRange : ∀ start finish, ∃ entries, entries.Perm (m.span start finish) ∧
    NewestFirst entries ∧ s.use (.inRange start finish) = (.ok (give entries), s)
  /-- Each entry of a creative instance is given once. -/
  ofCreative : ∀ id, ∃ entries, entries.Perm (m.ofCreative id) ∧
    s.use (.ofCreative id) = (.ok (give entries), s)

/-- The items of entries as they were saved. -/
def returnedItems (entries : List Entry) : List Item := entries.map Entry.returned

/-- The items of entries with their targets read anew, as far as they are valid then. -/
def restoredItems (entries : List Entry) : List Item :=
  (entries.map Entry.restored).filter Item.isValid

/-! ## The rows of a ledger in use -/

/-- The ledger has the settings and, as its rows, the entries of an ideal one. -/
structure Represents (s : Session) (m : Ideal) : Prop where
  handle : s.handle = m.handle
  ready : Ready s.db (m.entries.map Entry.record)
  valid : ∀ e ∈ m.entries, e.item.isValid = true

namespace Represents

variable {s : Session} {m : Ideal}

theorem start (handle : SettingsHandle) (now : Instant) :
    Represents (Session.start handle now) (Ideal.start handle) := by
  obtain ⟨db, hdb, hr⟩ := openLedger_on_empty now
  refine ⟨rfl, ?_, by simp [Ideal.start]⟩
  rw [Session.start, hdb]
  exact hr

theorem use_save (h : Represents s m) (items : List Item) :
    (s.use (.save items)).1 = .ok [] ∧
      Represents (s.use (.save items)).2 (m.use (.save items)) := by
  obtain ⟨after, ho, ha, hapart⟩ := save_on h.ready.events s.handle.settings items
  simp only [Session.use, Session.work, Work.on_bind, ho, Work.on_pure, true_and]
  refine ⟨h.handle, ?_, ?_⟩
  · have hready := h.ready.of_apart ha hapart
    rwa [← List.map_append] at hready
  · intro e he
    obtain he | he := List.mem_append.1 he
    · exact h.valid e he
    · obtain ⟨i, hi, rfl⟩ := List.mem_map.1 he
      exact (List.mem_filter.1 hi).2

theorem use_purge (h : Represents s m) {now cutoff : Instant}
    (hc : m.handle.settings.cutoff now = .ok cutoff) :
    (s.use (.purge now)).1 = .ok [] ∧
      Represents (s.use (.purge now)).2 (m.use (.purge now)) := by
  obtain ⟨after, ho, ha, hapart⟩ := purge_on h.ready.events (h.handle ▸ hc)
  have hleft : ∀ e ∈ m.entries, (!(Record.get e.record 0).le (.integer cutoff.toPlatform)) =
      decide (¬ e.time ≤ cutoff.toPlatform) := by
    intro e _
    rw [Entry.time_record, Value.integer_le_integer, decide_not]
  rw [filter_map_record hleft] at ha
  simp only [Session.use, Session.work, Work.on_bind, ho, Work.on_pure, true_and, Ideal.use, hc]
  exact ⟨h.handle, h.ready.of_apart ha hapart,
    fun e he => h.valid e (List.mem_of_mem_filter he)⟩

theorem use_purge_error (h : Represents s m) {now : Instant} {failure : Failure}
    (hc : m.handle.settings.cutoff now = .error failure) :
    s.use (.purge now) = (.error failure, s) := by
  simp only [Session.use, Session.work, Work.on_bind, purge_on_error (h.handle ▸ hc)]

theorem use_reopen (h : Represents s m) (handle : SettingsHandle) (now : Instant) :
    s.use (.reopen handle now) = (.ok [], { s with handle }) := by
  simp only [Session.use, Session.work, Work.on_bind, h.ready.openLedger_on, Work.on_pure]

theorem use_inRange (h : Represents s m) (first last : Instant) :
    s.use (.inRange first last) =
      (.ok (itemsOf (newest (inSpan first last (m.entries.map Entry.record)))), s) :=
  h.ready.events.use_inRange first last

theorem use_best (h : Represents s m) (first last : Instant) :
    s.use (.best first last) =
      (.ok (itemsOf (newest (bestOf (inSpan first last (m.entries.map Entry.record))))), s) :=
  h.ready.events.use_best first last

theorem use_ofCreative (h : Represents s m) (id : String) :
    s.use (.ofCreative id) =
      (.ok (itemsOf ((m.entries.map Entry.record).filter fun r =>
        (Record.get r 4).eq (.text id))), s) := by
  simp only [Session.use, Session.work, itemsOfCreative_on h.ready.events]

/-- One use takes the two ledgers from states that agree to states that agree. -/
theorem use (h : Represents s m) (u : Use) : Represents (s.use u).2 (m.use u) := by
  cases u with
  | save items => exact (h.use_save items).2
  | purge now =>
    cases hc : m.handle.settings.cutoff now with
    | ok cutoff => exact (h.use_purge hc).2
    | error failure =>
      simp only [h.use_purge_error hc, Ideal.use, hc]
      exact h
  | set settings => exact ⟨by simp only [Session.use, Ideal.use, h.handle], h.ready, h.valid⟩
  | reopen handle now =>
    rw [h.use_reopen]
    exact ⟨rfl, h.ready, h.valid⟩
  | inRange first last =>
    rw [h.use_inRange]
    exact h
  | best first last =>
    rw [h.use_best]
    exact h
  | ofCreative id =>
    rw [h.use_ofCreative]
    exact h

theorem after (h : Represents s m) (uses : List Use) :
    Represents (s.after uses) (m.after uses) := by
  induction uses generalizing s m with
  | nil => exact h
  | cons u uses ih => exact ih (h.use u)

theorem run (handle : SettingsHandle) (now : Instant) (uses : List Use) :
    Represents ((Session.start handle now).after uses) ((Ideal.start handle).after uses) :=
  (start handle now).after uses

/-! ## Its answers -/

theorem inSpan_map_record (m : Ideal) (first last : Instant) :
    inSpan first last (m.entries.map Entry.record) = (m.span first last).map Entry.record :=
  filter_map_record fun e _ => by simp

theorem filter_creative_map_record (m : Ideal) (id : String) :
    ((m.entries.map Entry.record).filter fun r => (Record.get r 4).eq (.text id)) =
      (m.ofCreative id).map Entry.record :=
  filter_map_record fun e _ => by rw [Entry.creative_record, Value.text_eq_text]

theorem newestFirst_mergeSort (entries : List Entry) :
    NewestFirst (entries.mergeSort fun d e => decide (e.time ≤ d.time)) := by
  have trans : ∀ a b c : Entry, decide (b.time ≤ a.time) = true → decide (c.time ≤ b.time) = true →
      decide (c.time ≤ a.time) = true := by
    intro a b c hab hbc
    simp only [decide_eq_true_eq] at hab hbc ⊢
    exact Int64.le_trans hbc hab
  have total : ∀ a b : Entry, (decide (b.time ≤ a.time) || decide (a.time ≤ b.time)) = true := by
    intro a b
    simpa using Int64.le_total b.time a.time
  exact (List.pairwise_mergeSort trans total entries).imp fun h => of_decide_eq_true h

/-- A ledger answers as the entries say, with the targets read anew. -/
theorem answers (h : Represents s m) : Answers restoredItems s m where
  save items := (h.use_save items).1
  purge now := by
    cases hc : m.handle.settings.cutoff now with
    | ok cutoff => exact (h.use_purge hc).1
    | error failure => exact h.use_purge_error hc
  reopen := h.use_reopen
  inRange first last := by
    refine ⟨_, List.mergeSort_perm _ _, newestFirst_mergeSort _, ?_⟩
    rw [h.use_inRange, inSpan_map_record, newest_map_record, itemsOf_map_record]
    rfl
  ofCreative id := by
    refine ⟨_, .refl _, ?_⟩
    rw [h.use_ofCreative, filter_creative_map_record, itemsOf_map_record]
    rfl

end Represents

/-! ## Giving back what was saved -/

theorem restoredItems_eq {entries : List Entry}
    (h : ∀ e ∈ entries, e.item.isValid = true ∧ e.item.TargetKept) :
    restoredItems entries = returnedItems entries := by
  have hr : entries.map Entry.restored = returnedItems entries :=
    List.map_congr_left fun e he => Entry.restored_eq_returned_iff.2 (h e he).2
  rw [restoredItems, hr, List.filter_eq_self]
  intro i hi
  obtain ⟨e, he, rfl⟩ := List.mem_map.1 hi
  rw [Entry.isValid_returned, (h e he).1]

/-- Items that are given back as they were saved have kept their targets: where one that is read
anew is no longer valid, there are fewer of them. -/
theorem targetKept_of_restoredItems {entries : List Entry}
    (h : restoredItems entries = returnedItems entries) : ∀ e ∈ entries, e.item.TargetKept := by
  have hlength := congrArg List.length h
  rw [restoredItems, returnedItems, List.length_map, ← List.length_map Entry.restored] at hlength
  have hall : restoredItems entries = entries.map Entry.restored :=
    List.filter_eq_self.2 (List.length_filter_eq_length_iff.1 hlength)
  intro e he
  exact Entry.restored_eq_returned_iff.1 (List.map_inj_left.1 (hall.symm.trans h) e he)

/-- Where targets are kept, items are given back as they were saved. -/
theorem Answers.returned {s : Session} {m : Ideal} (h : Answers restoredItems s m)
    (hk : ∀ e ∈ m.entries, e.item.isValid = true ∧ e.item.TargetKept) :
    Answers returnedItems s m where
  save := h.save
  purge := h.purge
  reopen := h.reopen
  inRange first last := by
    obtain ⟨entries, hp, hn, hu⟩ := h.inRange first last
    refine ⟨entries, hp, hn, ?_⟩
    rw [hu, restoredItems_eq fun e he => hk e (List.mem_of_mem_filter (hp.subset he))]
  ofCreative id := by
    obtain ⟨entries, hp, hu⟩ := h.ofCreative id
    refine ⟨entries, hp, ?_⟩
    rw [hu, restoredItems_eq fun e he => hk e (List.mem_of_mem_filter (hp.subset he))]

/-- One use adds no entries but those of items that it is given to save. -/
theorem Ideal.saved_of_mem_use {m : Ideal} {u : Use} {e : Entry} (he : e ∈ (m.use u).entries) :
    e ∈ m.entries ∨ ∃ i ∈ savedIn [u], Entry.ofItem i = e := by
  cases u with
  | save items =>
    obtain he | he := List.mem_append.1 he
    · exact .inl he
    · obtain ⟨i, hi, rfl⟩ := List.mem_map.1 he
      exact .inr ⟨i, by simpa [savedIn] using (List.mem_filter.1 hi).1, rfl⟩
  | purge now =>
    simp only [Ideal.use] at he
    split at he
    · exact .inl (List.mem_of_mem_filter he)
    · exact .inl he
  | _ => exact .inl he

theorem savedIn_cons (u : Use) (uses : List Use) :
    savedIn (u :: uses) = savedIn [u] ++ savedIn uses := by
  simp [savedIn]

/-- An entry after uses was there before or is that of an item saved by them. -/
theorem Ideal.saved_of_mem {m : Ideal} {uses : List Use} {e : Entry}
    (he : e ∈ (m.after uses).entries) :
    e ∈ m.entries ∨ ∃ i ∈ savedIn uses, Entry.ofItem i = e := by
  induction uses generalizing m with
  | nil => exact .inl he
  | cons u uses ih =>
    rw [savedIn_cons]
    simp only [List.mem_append, or_and_right, exists_or]
    obtain he | he := ih he
    · exact (Ideal.saved_of_mem_use he).imp id .inl
    · exact .inr (.inr he)

/-- What a run leaves in a ledger are the entries of items that were given to it to save. -/
theorem saved_of_mem_run {handle : SettingsHandle} {uses : List Use} {e : Entry}
    (he : e ∈ ((Ideal.start handle).after uses).entries) :
    ∃ i ∈ savedIn uses, Entry.ofItem i = e :=
  (Ideal.saved_of_mem he).resolve_left nofun

/-- All that a run leaves in a ledger is valid and was given to it to save. -/
theorem valid_and_savedIn {handle : SettingsHandle} {uses : List Use} {e : Entry}
    (he : e ∈ ((Ideal.start handle).after uses).entries) :
    e.item.isValid = true ∧ e.item ∈ savedIn uses := by
  refine ⟨(Represents.run handle .epoch uses).valid e he, ?_⟩
  obtain ⟨i, hi, rfl⟩ := saved_of_mem_run he
  exact hi

theorem forall_mem_savedIn_save {p : Item → Prop} {i : Item} (h : p i) :
    ∀ j ∈ savedIn [.save [i]], p j := by
  intro j hj
  rw [show j = i by simpa [savedIn] using hj]
  exact h

/-- The entry of an item that has just been saved, if it is valid, is alone in its moment. -/
theorem Ideal.span_save {i : Item} (hi : i.isValid = true) (handle : SettingsHandle) :
    ((Ideal.start handle).after [.save [i]]).span i.createdAt i.createdAt =
      [Entry.ofItem i] := by
  simp [Ideal.after, Ideal.start, Ideal.use, Ideal.span, entriesOf, hi, Entry.ofItem]

/-- A ledger gives an item back that is alone in its range only if its target is kept. -/
theorem targetKept_of_answers {s : Session} {m : Ideal} {i : Item} {start finish : Instant}
    (hr : Answers restoredItems s m) (h : Answers returnedItems s m)
    (hs : m.span start finish = [Entry.ofItem i]) : i.TargetKept := by
  obtain ⟨es, hes, -, hu⟩ := h.inRange start finish
  obtain ⟨ds, hds, -, hv⟩ := hr.inRange start finish
  rw [hs, List.perm_singleton] at hes hds
  subst hes hds
  have hsame := Except.ok.inj (Prod.mk.inj (hv.symm.trans hu)).1
  have hkept : (Entry.ofItem i).item.TargetKept :=
    targetKept_of_restoredItems hsame (Entry.ofItem i) (List.mem_singleton_self _)
  exact hkept

/-- In any run, with any settings and any items, a ledger answers as the entries say, with the
targets read anew. It gives back what was saved, in all runs that save items of some kind, if and
only if the targets of the valid ones among these are kept. -/
theorem answers_iff_targetKept (saved : Item → Prop) :
    (∀ handle now uses, Answers restoredItems ((Session.start handle now).after uses)
      ((Ideal.start handle).after uses)) ∧
    ((∀ handle now uses, (∀ i ∈ savedIn uses, saved i) →
      Answers returnedItems ((Session.start handle now).after uses)
        ((Ideal.start handle).after uses)) ↔
      ∀ i, saved i → i.isValid = true → i.TargetKept) := by
  refine ⟨fun handle now uses => (Represents.run handle now uses).answers, fun h i hi hv => ?_,
    fun hk handle now uses hs => ?_⟩
  · exact targetKept_of_answers (Represents.run (.ofSettings .standard) .epoch [.save [i]]).answers
      (h (.ofSettings .standard) .epoch [.save [i]] (forall_mem_savedIn_save hi))
      (Ideal.span_save hv _)
  · refine (Represents.run handle now uses).answers.returned fun e he => ?_
    obtain ⟨hv, hmem⟩ := valid_and_savedIn he
    exact ⟨hv, hk e.item (hs e.item hmem) hv⟩

/-! ## An item that is lost -/

/-- A valid item whose target is a drive on a host. -/
def itemOnDrive : Item where
  createdAt := .epoch
  adType := .notification
  confirmationType := .click
  placementId := "p"
  creativeInstanceId := "c"
  creativeSetId := "s"
  campaignId := "k"
  advertiserId := "a"
  segment := ""
  title := ""
  description := ""
  targetUrl := some Url.driveOnHost

theorem isValid_itemOnDrive : itemOnDrive.isValid = true := by decide

theorem read?_targetText_itemOnDrive : Url.read? itemOnDrive.targetText = some Url.driveAlone :=
  Url.read?_text_driveOnHost

theorem not_targetKept_itemOnDrive : ¬ itemOnDrive.TargetKept := by
  intro h
  have htarget := read?_targetText_itemOnDrive.symm.trans h
  exact absurd htarget (by decide)

theorem restoredItems_itemOnDrive : restoredItems [Entry.ofItem itemOnDrive] = [] := by
  have hinvalid : (Entry.ofItem itemOnDrive).restored.isValid = false := by
    have htarget : (Entry.ofItem itemOnDrive).restored.targetUrl = some Url.driveAlone :=
      read?_targetText_itemOnDrive
    simp [Item.isValid, htarget, Url.hasHost_driveAlone]
  rw [restoredItems, List.map_singleton, List.filter_cons_of_neg (by simp [hinvalid]),
    List.filter_nil]

/-- A valid item, as it can be read, is saved and never given back. -/
theorem itemOnDrive_lost :
    let s := (Session.start (.ofSettings .standard) .epoch).after [.save [itemOnDrive]]
    let m := (Ideal.start (.ofSettings .standard)).after [.save [itemOnDrive]]
    Url.read? "file://h//C:" = itemOnDrive.targetUrl ∧ itemOnDrive.isValid = true ∧
      m.span .epoch .epoch = [Entry.ofItem itemOnDrive] ∧
      s.use (.inRange .epoch .epoch) = (.ok [], s) ∧ ¬ Answers returnedItems s m := by
  intro s m
  have hanswers : Answers restoredItems s m := (Represents.run _ _ _).answers
  have hspan : m.span .epoch .epoch = [Entry.ofItem itemOnDrive] :=
    Ideal.span_save isValid_itemOnDrive _
  refine ⟨Url.read?_driveOnHost, isValid_itemOnDrive, hspan, ?_, fun h =>
    not_targetKept_itemOnDrive (targetKept_of_answers hanswers h hspan)⟩
  obtain ⟨entries, hp, -, hu⟩ := hanswers.inRange .epoch .epoch
  rw [hspan, List.perm_singleton] at hp
  rw [hu, hp, restoredItems_itemOnDrive]

end AdLedger.Store
