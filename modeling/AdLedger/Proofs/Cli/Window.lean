import AdLedger.Proofs.Cli.Export
import AdLedger.Proofs.Store.TimeRanges
import AdLedger.Proofs.Time.Counting

/-!
# The window of the history

A purge and the history that is asked for without a range count back by the same days from the same
time (`resolve_usual_iff`), but a purge takes away what is from the very microsecond where the
history begins. So what a purge leaves and is not from after its time is what the history then
tells of (`Ideal.span_use_purge`), and before the purge it tells of the entries of that microsecond
as well (`Ideal.perm_span_of_cutoff`). Whether an item that is told of is given back as it was saved
is a matter of its target.
-/

namespace AdLedger

open Time (Instant)

namespace Cli

/-! ## Periods without a start -/

namespace Period

variable {p : Period} {retentionDays : Nat} {now start finish : Instant}

/-- The period of a history for which nothing else is asked. -/
def usual : Period := ⟨none, none, none⟩

theorem resolve_of_daysBefore? (hp : p.start = none)
    (h : (p.finish.getD now).daysBefore? (p.days.getD retentionDays) = some start) :
    p.resolve retentionDays now = .ok (start, p.finish.getD now) := by
  have hle : start ≤ p.finish.getD now := Instant.le_of_daysBefore? h
  simp only [resolve, startBefore, hp, h, bind, Except.bind, hle, if_true]
  rfl

theorem resolve_of_tooManyDays (hp : p.start = none)
    (h : (p.finish.getD now).daysBefore? (p.days.getD retentionDays) = none) :
    p.resolve retentionDays now = .error (.tooManyDays (p.days.getD retentionDays)) := by
  simp only [resolve, startBefore, hp, h, bind, Except.bind]

/-- The ends that are found for a period without a start are its days apart. -/
theorem resolve_eq_ok_iff (hp : p.start = none) :
    p.resolve retentionDays now = .ok (start, finish) ↔
      (p.finish.getD now).daysBefore? (p.days.getD retentionDays) = some start ∧
        finish = p.finish.getD now := by
  cases h : (p.finish.getD now).daysBefore? (p.days.getD retentionDays) with
  | none => simp [resolve_of_tooManyDays hp h]
  | some first => simp [resolve_of_daysBefore? hp h, eq_comm]

/-- How a period without a start is understood: its days are those asked for, or else those for
which events are kept, and it ends when it is asked to, or else now. -/
structure Resolved (p : Period) (retentionDays : Nat) (now : Instant) : Prop where
  /-- It has ends just where there is an instant so many days, of nanoseconds, before the last. -/
  ok_iff : (∃ ends, p.resolve retentionDays now = .ok ends) ↔
    ∃ start : Instant, start.nanosFrom1601 =
      (p.finish.getD now).nanosFrom1601 - p.days.getD retentionDays * 86400000000000
  /-- Its ends are so many days, of microseconds, apart. -/
  ends : ∀ start finish, p.resolve retentionDays now = .ok (start, finish) →
    finish = p.finish.getD now ∧
    finish.toPlatform.toInt - start.toPlatform.toInt = p.days.getD retentionDays * 86400000000
  refused : ∀ fault, p.resolve retentionDays now = .error fault →
    fault = .tooManyDays (p.days.getD retentionDays)

theorem resolved (hp : p.start = none) (retentionDays : Nat) (now : Instant) :
    p.Resolved retentionDays now where
  ok_iff := by
    rw [← Instant.exists_daysBefore?_iff]
    constructor
    · rintro ⟨⟨start, finish⟩, h⟩
      exact ⟨start, ((resolve_eq_ok_iff hp).1 h).1⟩
    · rintro ⟨start, h⟩
      exact ⟨_, resolve_of_daysBefore? hp h⟩
  ends start finish h := by
    obtain ⟨hstart, rfl⟩ := (resolve_eq_ok_iff hp).1 h
    have hmicros := Instant.micros_of_daysBefore? hstart
    refine ⟨rfl, ?_⟩
    rw [Instant.toInt_toPlatform, Instant.toInt_toPlatform]
    omega
  refused fault h := by
    cases hstart : (p.finish.getD now).daysBefore? (p.days.getD retentionDays) with
    | none => exact (Except.error.inj ((resolve_of_tooManyDays hp hstart).symm.trans h)).symm
    | some start => cases (resolve_of_daysBefore? hp hstart).symm.trans h

/-- The usual history begins at the cutoff of a purge, and fails where there is none. -/
theorem resolve_usual_iff {settings : Settings} {cutoff : Instant} :
    usual.resolve settings.retentionDays now = .ok (cutoff, now) ↔
      settings.cutoff now = .ok cutoff := by
  rw [resolve_eq_ok_iff rfl, Settings.cutoff]
  simp only [usual, Option.getD_none, and_true]
  cases now.daysBefore? settings.retentionDays <;> simp

end Period
end Cli

/-! ## Entries about a purge -/

namespace Store

variable {s : Session} {m : Ideal} {now cutoff : Instant}

theorem Ideal.entries_use_purge (hc : m.handle.settings.cutoff now = .ok cutoff) :
    (m.use (.purge now)).entries = m.entries.filter fun e => ¬ e.time ≤ cutoff.toPlatform := by
  simp only [Ideal.use, hc]

/-- What a purge leaves is after its cutoff, so that only the end of the range counts. -/
theorem Ideal.span_use_purge (hc : m.handle.settings.cutoff now = .ok cutoff) :
    (m.use (.purge now)).span cutoff now =
      (m.use (.purge now)).entries.filter fun e => e.time ≤ now.toPlatform := by
  refine List.filter_congr fun e he => ?_
  rw [entries_use_purge hc] at he
  have hafter : ¬ e.time ≤ cutoff.toPlatform := of_decide_eq_true (List.mem_filter.1 he).2
  have hle : cutoff.toPlatform ≤ e.time :=
    (Int64.le_total cutoff.toPlatform e.time).resolve_right hafter
  rw [decide_eq_decide, and_iff_right hle]

/-- Before the purge, the entries of the cutoff's own microsecond are in the range as well. -/
theorem Ideal.perm_span_of_cutoff (hc : m.handle.settings.cutoff now = .ok cutoff)
    (hle : cutoff.toPlatform ≤ now.toPlatform) :
    (m.span cutoff now).Perm ((m.use (.purge now)).span cutoff now ++
      m.entries.filter fun e => e.time = cutoff.toPlatform) := by
  have hleft : (m.use (.purge now)).span cutoff now =
      (m.span cutoff now).filter fun e => ¬ e.time ≤ cutoff.toPlatform := by
    rw [span, span, entries_use_purge hc, List.filter_filter, List.filter_filter]
    exact List.filter_congr fun e _ => Bool.and_comm _ _
  have hfirst : (m.entries.filter fun e => e.time = cutoff.toPlatform) =
      (m.span cutoff now).filter fun e => !decide (¬ e.time ≤ cutoff.toPlatform) := by
    rw [span, List.filter_filter]
    refine List.filter_congr fun e _ => Bool.eq_iff_iff.2 ?_
    simp only [Bool.and_eq_true, Bool.not_eq_true', decide_eq_false_iff_not, not_not,
      decide_eq_true_eq]
    constructor
    · intro h
      exact ⟨h ▸ Int64.le_refl _, h ▸ Int64.le_refl _, h ▸ hle⟩
    · rintro ⟨hup, hdown, -⟩
      exact Int64.le_antisymm hup hdown
  rw [hleft, hfirst]
  exact (List.filter_append_perm _ _).symm

theorem restoredItems_append (first second : List Entry) :
    restoredItems (first ++ second) = restoredItems first ++ restoredItems second := by
  rw [restoredItems, List.map_append, List.filter_append]
  rfl

theorem restoredItems_perm {first second : List Entry} (h : first.Perm second) :
    (restoredItems first).Perm (restoredItems second) :=
  (h.map _).filter _

/-- An item that is given back with a time that is no later than another one is kept under no later
a word. -/
theorem Entry.time_le_of_returned_le {i : Item} (hend : ¬ i.createdAt.AtEnd)
    (hle : (Entry.ofItem i).returned.createdAt ≤ now) :
    (Entry.ofItem i).time ≤ now.toPlatform := by
  have hwhole : (Entry.ofItem i).returned.createdAt.Whole := Instant.whole_ofPlatform _
  have hmicros := Instant.micros_le_micros hle fun hleap => absurd hleap hwhole.2
  have hword : (Entry.ofItem i).returned.createdAt.toPlatform = (Entry.ofItem i).time :=
    Instant.toPlatform_ofPlatform_toPlatform_iff.2 hend
  rw [← hword]
  exact Instant.toPlatform_le_toPlatform_iff.2 hmicros

end Store

/-! ## What the usual history tells -/

namespace Cli

open Store

variable {s : Session} {m : Ideal} {now cutoff : Instant}

/-- The items that a ledger gives from a start until now are those of which the usual history tells,
wherever the ledger is kept with the days of its settings. -/
structure Recounts (s : Session) (start now : Instant) (items : List Item) : Prop where
  found : s.use (.inRange start now) = (.ok items, s)
  history : ∀ fs path settings handle, Keeps fs path s.db →
    (loadSettings settings).on fs = (.ok handle, fs) →
    handle.settings.retentionDays = s.handle.settings.retentionDays →
    ∃ after, (history ⟨some path, settings⟩ .usual false now).on fs =
      (.ok (.found items), after) ∧ Keeps after path s.db

theorem recounts (h : Represents s m)
    (hr : Period.usual.resolve s.handle.settings.retentionDays now = .ok (cutoff, now)) :
    ∃ entries, entries.Perm (m.span cutoff now) ∧ NewestFirst entries ∧
      Recounts s cutoff now (restoredItems entries) := by
  obtain ⟨entries, hperm, hnewest, hfound⟩ := h.answers.inRange cutoff now
  refine ⟨entries, hperm, hnewest, hfound, fun fs path settings handle hk hs hdays => ?_⟩
  exact history_on h hfound hk hs (hdays ▸ hr)

/-- What the usual history at a time tells of a ledger before a purge at that time, and after it:
the entries given are those that are left and not from after that time. -/
structure Windowed (s : Session) (m : Ideal) (now cutoff : Instant) (given : List Entry) :
    Prop where
  purgedUpTo : s.handle.settings.cutoff now = .ok cutoff
  range : Period.usual.resolve s.handle.settings.retentionDays now = .ok (cutoff, now)
  remaining : given.Perm ((m.use (.purge now)).entries.filter fun e => e.time ≤ now.toPlatform)
  newestFirst : NewestFirst given
  after : Recounts (s.use (.purge now)).2 cutoff now (restoredItems given)
  /-- Nothing of them is lost, and nothing changed, if and only if their targets are kept. -/
  returned_iff : restoredItems given = returnedItems given ↔ ∀ e ∈ given, e.item.TargetKept
  /-- Before the purge there are also those from the microsecond of the cutoff, and no others. -/
  before : ∃ items, Recounts s cutoff now items ∧ items.Perm (restoredItems given ++
    restoredItems (m.entries.filter fun e => e.time = cutoff.toPlatform))

/-- A purge has succeeded only where it has a cutoff. -/
theorem exists_cutoff_of_purged (h : Represents s m) (hpurge : (s.use (.purge now)).1 = .ok []) :
    ∃ cutoff, m.handle.settings.cutoff now = .ok cutoff := by
  cases hc : m.handle.settings.cutoff now with
  | ok cutoff => exact ⟨cutoff, rfl⟩
  | error failure =>
    rw [h.use_purge_error hc] at hpurge
    cases hpurge

theorem windowed (h : Represents s m) (hc : m.handle.settings.cutoff now = .ok cutoff) :
    ∃ given, Windowed s m now cutoff given := by
  have hafter : Represents (s.use (.purge now)).2 (m.use (.purge now)) := h.use (.purge now)
  have hcutoff : s.handle.settings.cutoff now = .ok cutoff := h.handle ▸ hc
  have hrange := Period.resolve_usual_iff.2 hcutoff
  have hle : cutoff.toPlatform ≤ now.toPlatform := by
    have hends := ((Period.resolved rfl _ _).ends cutoff now hrange).2
    rw [Int64.le_iff_toInt_le]
    omega
  obtain ⟨given, hgiven, hnewest, hafterwards⟩ := recounts hafter hrange
  obtain ⟨earlier, hearlier, -, hbefore⟩ := recounts h hrange
  have hvalid : ∀ e ∈ given, e.item.isValid = true := fun e he =>
    hafter.valid e (List.mem_of_mem_filter (hgiven.subset he))
  refine ⟨given, hcutoff, hrange, Ideal.span_use_purge hc ▸ hgiven, hnewest, hafterwards,
    ⟨targetKept_of_restoredItems, fun hk => restoredItems_eq fun e he => ⟨hvalid e he, hk e he⟩⟩,
    _, hbefore, ?_⟩
  rw [← restoredItems_append]
  exact restoredItems_perm ((hearlier.trans (Ideal.perm_span_of_cutoff hc hle)).trans
    (hgiven.symm.append_right _))

/-- A period without a start has ends if and only if so many days before its end there is an
instant, and they are so many days apart. After a run, and a purge that then succeeds, the usual
history at the same time tells of all that is left, but for what is from after that time: nothing
with an earlier time is left out, unless it is from the leap second at the end of the last year, and
all of it is given back as it was saved if and only if its targets are kept. Before the purge, the
history tells of the same and of what is from the very microsecond of the cutoff. -/
theorem usual_history_after_purge (now : Instant) :
    (∀ (p : Period) retentionDays, p.start = none → p.Resolved retentionDays now) ∧
    ∀ handle opened uses,
      (((Session.start handle opened).after uses).use (.purge now)).1 = .ok [] →
      ∃ cutoff given, Windowed ((Session.start handle opened).after uses)
          ((Ideal.start handle).after uses) now cutoff given ∧
        ∀ e ∈ (((Ideal.start handle).after uses).use (.purge now)).entries,
          ¬ e.item.createdAt.AtEnd → e.returned.createdAt ≤ now → e ∈ given := by
  refine ⟨fun p retentionDays hp => p.resolved hp retentionDays now,
    fun handle opened uses hpurge => ?_⟩
  have hrep := Represents.run handle opened uses
  obtain ⟨cutoff, hc⟩ := exists_cutoff_of_purged hrep hpurge
  obtain ⟨given, hgiven⟩ := windowed hrep hc
  refine ⟨cutoff, given, hgiven, fun e he hend hle => ?_⟩
  have hsaved := Ideal.entries_use_purge hc ▸ he
  obtain ⟨i, -, rfl⟩ := saved_of_mem_run (List.mem_of_mem_filter hsaved)
  have htime := Entry.time_le_of_returned_le hend hle
  exact hgiven.remaining.symm.subset (List.mem_filter.2 ⟨he, decide_eq_true htime⟩)

/-! ## Views in a window -/

/-- A microsecond after the start of 1970. -/
def nextMicrosecond : Instant := (Instant.ofParts? 0 1000).getD .epoch

/-- Thirty days after the start of 1970. -/
def monthLater : Instant := (Instant.ofParts? 2592000 0).getD .epoch

/-- The times of views from a cutoff, from the next microsecond and from that after the purge. -/
def timesAboutWindow : List Instant :=
  [.epoch, nextMicrosecond, .ofPlatform (monthLater.toPlatform + 1)]

theorem restoredItems_views (times : List Instant) :
    restoredItems (times.map fun c => Entry.ofItem (viewAt c)) =
      times.map fun c => viewAt (.ofPlatform c.toPlatform) := by
  rw [restoredItems, ← itemsOf_map_record, List.map_map]
  exact itemsOf_map_viewRowAt times

/-- Of three views, the usual history tells of the first two, and after a purge of the second one
only. The history of the 31 days before the purge begins a day before the first one. -/
theorem views_in_window :
    let s := (Session.start (.ofSettings .standard) .epoch).after
      [.save (timesAboutWindow.map viewAt)]
    (∃ start, (⟨some 31, none, none⟩ : Period).resolve 30 monthLater = .ok (start, monthLater) ∧
      monthLater.toPlatform.toInt - start.toPlatform.toInt = 2678400000000) ∧
    (s.use (.purge monthLater)).1 = .ok [] ∧
    Recounts (s.use (.purge monthLater)).2 .epoch monthLater [viewAt nextMicrosecond] ∧
    ∃ items, Recounts s .epoch monthLater items ∧
      items.Perm [viewAt nextMicrosecond, viewAt .epoch] := by
  intro s
  have hc : Settings.standard.cutoff monthLater = .ok .epoch := rfl
  have hentries := entries_save_views (.ofSettings .standard) timesAboutWindow
  have hpurge : (s.use (.purge monthLater)).1 = .ok [] :=
    ((Represents.run (.ofSettings .standard) .epoch
      [.save (timesAboutWindow.map viewAt)]).use_purge hc).1
  obtain ⟨hperiods, hruns⟩ := usual_history_after_purge monthLater
  obtain ⟨cutoff, given, hgiven, -⟩ := hruns (.ofSettings .standard) .epoch _ hpurge
  obtain rfl : cutoff = .epoch := Except.ok.inj (hgiven.purgedUpTo.symm.trans hc)
  have hleft := hgiven.remaining
  rw [Ideal.entries_use_purge hc, hentries, List.filter_filter, List.filter_map] at hleft
  obtain rfl : given = [nextMicrosecond].map fun c => Entry.ofItem (viewAt c) :=
    List.perm_singleton.1 hleft
  have hafter := hgiven.after
  rw [restoredItems_views] at hafter
  obtain ⟨items, hfound, hperm⟩ := hgiven.before
  rw [hentries, List.filter_map, restoredItems_views, restoredItems_views] at hperm
  refine ⟨?_, hpurge, hafter, items, hfound, hperm⟩
  have hlong := hperiods ⟨some 31, none, none⟩ 30 rfl
  obtain ⟨⟨start, finish⟩, h⟩ := hlong.ok_iff.2
    ⟨(Instant.ofParts? (-86400) 0).getD .epoch, by decide⟩
  obtain ⟨rfl, hdays⟩ := hlong.ends start finish h
  exact ⟨start, h, hdays⟩

/-! ## An item of which is not told -/

/-- An item on a drive is left by a purge a microsecond after it, and the usual history at that time
tells of nothing. -/
theorem itemOnDrive_untold :
    let s := (Session.start (.ofSettings .standard) .epoch).after [.save [itemOnDrive]]
    Url.read? "file://h//C:" = itemOnDrive.targetUrl ∧ itemOnDrive.isValid = true ∧
    itemOnDrive.createdAt ≤ nextMicrosecond ∧
    (s.use (.purge nextMicrosecond)).1 = .ok [] ∧
    eventRows (s.use (.purge nextMicrosecond)).2.db = [(Entry.ofItem itemOnDrive).record] ∧
    ∃ start, Period.usual.resolve s.handle.settings.retentionDays nextMicrosecond =
        .ok (start, nextMicrosecond) ∧
      Recounts (s.use (.purge nextMicrosecond)).2 start nextMicrosecond [] := by
  intro s
  have hc : Settings.standard.cutoff nextMicrosecond =
    .ok ((Instant.ofParts? (-2592000) 1000).getD .epoch) := rfl
  have hrep := Represents.run (.ofSettings .standard) .epoch [.save [itemOnDrive]]
  obtain ⟨hpurge, hafter⟩ := hrep.use_purge hc
  have hentries : (((Ideal.start (.ofSettings .standard)).after [.save [itemOnDrive]]).use
      (.purge nextMicrosecond)).entries = [Entry.ofItem itemOnDrive] := by
    rw [Ideal.entries_use_purge hc]
    decide
  obtain ⟨given, hgiven⟩ := windowed hrep hc
  have hleft := hgiven.remaining
  rw [hentries] at hleft
  have hitem : given = [Entry.ofItem itemOnDrive] := List.perm_singleton.1 hleft
  refine ⟨Url.read?_driveOnHost, isValid_itemOnDrive, by decide, hpurge, ?_, _, hgiven.range, ?_⟩
  · rw [hafter.ready.events.eventRows_eq, hentries]
    rfl
  · have htold := hgiven.after
    rw [hitem, restoredItems_itemOnDrive] at htold
    exact htold

end Cli
end AdLedger
