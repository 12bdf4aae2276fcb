import AdLedger.Cli.Draft
import AdLedger.Proofs.Store.Reopening
import AdLedger.Proofs.Store.RoundTrip
import AdLedger.Proofs.Time.Order

/-!
# Ranges of time

Which rows a ledger gives for a range, by the times that they are read as. Rows are picked by their
words. So a row is given if and only if its time lies between the ends of the range when all three
are counted in whole microseconds, as long as its word is that of its time (`Dated`); of all that is
saved only what is from the leap second at the end of the last year has another word. In every run
the rows given are those between the ends in the order of instants if and only if the ends are sharp
(`ranges_respected_iff`).
-/

namespace AdLedger

open Sql
open Time (Instant)
open Time.Instant (AtEnd Between MicrosBetween Sharp)

theorem Cli.Period.le_of_resolve {p : Period} {days : Nat} {asked start finish : Instant}
    (h : p.resolve days asked = .ok (start, finish)) : start ≤ finish := by
  simp only [resolve] at h
  cases hs : p.startBefore days (p.finish.getD asked) with
  | error fault =>
    rw [hs] at h
    cases h
  | ok first =>
    rw [hs] at h
    by_cases hle : first ≤ p.finish.getD asked
    · simp only [bind, Except.bind, hle, if_true] at h
      cases h
      exact hle
    · simp only [bind, Except.bind, hle, if_false] at h
      cases h

namespace Store

/-- The word of a row is that of the time that the row is read as. -/
def Dated (r : Record) : Prop := r.get 0 = .integer (itemOf r).createdAt.toPlatform

/-- A ledger gives the rows of a range by a test of the times that they are read as: as far as rows
are dated, it gives each of those that pass once and no others, and the best are among these. -/
structure Gives (s : Session) (start finish : Instant) (during : Instant → Prop) : Prop where
  inRange : ∃ picked : Record → Bool, ∃ selected,
    selected.Perm ((eventRows s.db).filter picked) ∧
    s.use (.inRange start finish) = (.ok (itemsOf selected), s) ∧
    ∀ r ∈ eventRows s.db, Dated r → (picked r = true ↔ during (itemOf r).createdAt)
  best : ∃ selected ⊆ eventRows s.db,
    s.use (.best start finish) = (.ok (itemsOf selected), s) ∧
    ∀ r ∈ selected, Dated r → during (itemOf r).createdAt

section

variable {s : Session} {start finish : Instant} {during other : Instant → Prop}

/-- What a row is read as has a whole time, so that a test of other times makes no difference. -/
theorem Gives.congr (h : Gives s start finish during)
    (heq : ∀ c : Instant, c.Whole → (during c ↔ other c)) : Gives s start finish other := by
  have htimes : ∀ r, during (itemOf r).createdAt ↔ other (itemOf r).createdAt :=
    fun r => heq _ (Instant.whole_ofPlatform _)
  obtain ⟨picked, selected, hp, hu, hall⟩ := h.inRange
  obtain ⟨bestRows, hsub, hb, hbest⟩ := h.best
  exact ⟨⟨picked, selected, hp, hu, fun r hr hd => (hall r hr hd).trans (htimes r)⟩,
    ⟨bestRows, hsub, hb, fun r hr hd => (htimes r).1 (hbest r hr hd)⟩⟩

/-- A ledger with one row, if it can be read, gives its item if and only if its time passes the
test. -/
theorem Gives.use_inRange_eq_iff (h : Gives s start finish during) {r : Record}
    (hrows : eventRows s.db = [r]) (hd : Dated r) (hread : readable r = true) :
    s.use (.inRange start finish) = (.ok [itemOf r], s) ↔ during (itemOf r).createdAt := by
  obtain ⟨picked, selected, hp, hu, hall⟩ := h.inRange
  rw [hrows] at hp hall
  rw [hu, ← hall r (List.mem_singleton_self r) hd]
  cases hpick : picked r with
  | true =>
    rw [List.filter_cons_of_pos hpick, List.filter_nil, List.perm_singleton] at hp
    simp [hp, itemsOf_singleton hread]
  | false =>
    rw [List.filter_cons_of_neg (by simp [hpick]), List.filter_nil, List.perm_nil] at hp
    simp [hp, itemsOf]

/-! ## Counting in microseconds -/

/-- A row is in a range if and only if its time is, in microseconds. -/
theorem within_iff {r : Record} (h : Dated r) :
    within start.toPlatform finish.toPlatform r = true ↔
      MicrosBetween start finish (itemOf r).createdAt := by
  rw [within, h, Value.integer_le_integer, Value.integer_le_integer, Bool.and_eq_true,
    decide_eq_true_iff, decide_eq_true_iff, Instant.toPlatform_le_toPlatform_iff,
    Instant.toPlatform_le_toPlatform_iff]
  rfl

/-- Whatever a table holds, its rows are given by their times in microseconds. -/
theorem Holds.gives {rows : List Record} (h : Holds s.db rows) (start finish : Instant) :
    Gives s start finish (MicrosBetween start finish) := by
  have hsub : newest (bestOf (inSpan start finish rows)) ⊆ inSpan start finish rows :=
    fun r hr => mem_of_mem_bestOf ((List.mergeSort_perm _ _).subset hr)
  refine ⟨⟨within start.toPlatform finish.toPlatform, newest (inSpan start finish rows), ?_,
    h.use_inRange start finish, fun r _ => within_iff⟩,
    ⟨newest (bestOf (inSpan start finish rows)), ?_, h.use_best start finish, fun r hr hd => ?_⟩⟩
  · rw [h.eventRows_eq]
    exact List.mergeSort_perm _ _
  · rw [h.eventRows_eq]
    exact fun r hr => List.mem_of_mem_filter (hsub hr)
  · exact (within_iff hd).1 (within_of_mem_inSpan (hsub hr))

end

/-! ## Rows of runs -/

theorem dated_record_iff {i : Item} : Dated (Entry.ofItem i).record ↔ ¬ i.createdAt.AtEnd := by
  rw [← Instant.toPlatform_ofPlatform_toPlatform_iff, Dated, itemOf_record, Entry.time_record,
    Value.integer.injEq]
  exact eq_comm

/-- The rows after a run are those of items that were saved. -/
theorem saved_of_mem_eventRows {handle : SettingsHandle} {now : Instant} {uses : List Use}
    {r : Record} (h : r ∈ eventRows ((Session.start handle now).after uses).db) :
    ∃ i ∈ savedIn uses, (Entry.ofItem i).record = r := by
  rw [(Represents.run handle now uses).ready.events.eventRows_eq] at h
  obtain ⟨e, he, rfl⟩ := List.mem_map.1 h
  obtain ⟨i, hi, rfl⟩ := saved_of_mem_run he
  exact ⟨i, hi, rfl⟩

theorem gives_after (handle : SettingsHandle) (now : Instant) (uses : List Use)
    (start finish : Instant) :
    Gives ((Session.start handle now).after uses) start finish (MicrosBetween start finish) :=
  (Represents.run handle now uses).ready.events.gives start finish

/-! ## Views -/

def viewAt (c : Instant) : Item := { viewOfPlacement with createdAt := c }

def viewRowAt (c : Instant) : Record := (Entry.ofItem (viewAt c)).record

theorem isValid_viewAt (c : Instant) : (viewAt c).isValid = true :=
  show viewOfPlacement.isValid = true by decide

theorem itemOf_viewRowAt (c : Instant) :
    itemOf (viewRowAt c) = viewAt (.ofPlatform c.toPlatform) := by
  have hkept : (Entry.ofItem (viewAt c)).item.TargetKept := targetKept_viewOfPlacement
  exact (itemOf_record _).trans (Entry.restored_eq_returned_iff.2 hkept)

theorem readable_viewRowAt (c : Instant) : readable (viewRowAt c) = true := by
  rw [readable, itemOf_viewRowAt]
  exact isValid_viewAt _

theorem entries_save_views (handle : SettingsHandle) (times : List Instant) :
    ((Ideal.start handle).after [.save (times.map viewAt)]).entries =
      times.map fun c => Entry.ofItem (viewAt c) := by
  have hvalid : (times.map viewAt).filter Item.isValid = times.map viewAt :=
    List.filter_eq_self.2 (List.forall_mem_map.2 fun c _ => isValid_viewAt c)
  simp [Ideal.after, Ideal.start, Ideal.use, entriesOf, hvalid]

theorem holds_save_views (handle : SettingsHandle) (now : Instant) (times : List Instant) :
    Holds ((Session.start handle now).after [.save (times.map viewAt)]).db
      (times.map viewRowAt) := by
  have h := (Represents.run handle now [.save (times.map viewAt)]).ready.events
  rwa [entries_save_views, List.map_map] at h

/-- Two tests by which a ledger gives rows after every run are the same for whole times. -/
theorem iff_of_gives {start finish : Instant} {during other : Instant → Prop}
    (h : ∀ handle now uses, Gives ((Session.start handle now).after uses) start finish during)
    (h' : ∀ handle now uses, Gives ((Session.start handle now).after uses) start finish other)
    {c : Instant} (hc : c.Whole) : during c ↔ other c := by
  have hrows := (holds_save_views (.ofSettings .standard) .epoch [c]).eventRows_eq
  have hd : Dated (viewRowAt c) := dated_record_iff.2 fun he => hc.2 he.2
  have htime : (itemOf (viewRowAt c)).createdAt = c := by
    rw [itemOf_viewRowAt]
    exact Instant.ofPlatform_toPlatform_eq_self_iff.2 hc
  rw [← htime, ← (h _ _ _).use_inRange_eq_iff hrows hd (readable_viewRowAt c),
    ← (h' _ _ _).use_inRange_eq_iff hrows hd (readable_viewRowAt c)]

/-- After every run, a ledger gives for a range that is asked for the rows whose times lie in it
when counted in whole microseconds, as far as words denote the times, which they do for all that is
saved but at the end of the last year; and the best of the range are among these. After every run it
gives those that lie in the range in the order of instants if and only if the ends of the range are
sharp. -/
theorem ranges_respected_iff {p : Cli.Period} {days : Nat} {asked start finish : Instant}
    (h : p.resolve days asked = .ok (start, finish)) :
    (∀ handle now uses, Gives ((Session.start handle now).after uses) start finish
      (MicrosBetween start finish)) ∧
    (∀ handle now uses, ∀ r ∈ eventRows ((Session.start handle now).after uses).db,
      ∃ i ∈ savedIn uses, (Entry.ofItem i).record = r ∧ (Dated r ↔ ¬ i.createdAt.AtEnd)) ∧
    ((∀ handle now uses, Gives ((Session.start handle now).after uses) start finish
      (Between start finish)) ↔ Sharp start finish) := by
  refine ⟨fun handle now uses => gives_after handle now uses start finish,
    fun handle now uses r hr => ?_, ?_⟩
  · obtain ⟨i, hi, rfl⟩ := saved_of_mem_eventRows hr
    exact ⟨i, hi, rfl, dated_record_iff⟩
  · rw [← Instant.countedAlike_iff_sharp (Cli.Period.le_of_resolve h)]
    constructor
    · exact fun hall c =>
        iff_of_gives (fun handle now uses => gives_after handle now uses start finish) hall
    · exact fun heq handle now uses => (gives_after handle now uses start finish).congr heq

theorem epoch_respected :
    (⟨none, some .epoch, none⟩ : Cli.Period).resolve 30 .epoch = .ok (.epoch, .epoch) ∧
    ∀ handle now uses, Gives ((Session.start handle now).after uses) .epoch .epoch
      (Between .epoch .epoch) := by
  have h : (⟨none, some .epoch, none⟩ : Cli.Period).resolve 30 .epoch = .ok (.epoch, .epoch) := rfl
  exact ⟨h, (ranges_respected_iff h).2.2.2 ⟨by decide, by decide, by decide⟩⟩

/-! ## Views that are misplaced -/

/-- Half a microsecond after the start of 1970. -/
def halfMicrosecond : Instant := (Instant.ofParts? 0 500).getD .epoch

/-- The middle of the leap second at the end of the first minute of 1970. -/
def midLeapSecond : Instant := (Instant.ofParts? 59 1500000000).getD .epoch

/-- A quarter of a second after that leap second. -/
def afterLeapSecond : Instant := (Instant.ofParts? 60 250000000).getD .epoch

/-- The middle of the leap second at the end of the last year. -/
def endOfYears : Instant := (Instant.ofParts? Time.lastSecond 1500000000).getD .epoch

theorem itemsOf_map_viewRowAt (times : List Instant) :
    itemsOf (times.map viewRowAt) = times.map fun c => viewAt (.ofPlatform c.toPlatform) := by
  rw [itemsOf, List.map_map, List.filter_eq_self.2]
  · exact List.map_congr_left fun c _ => itemOf_viewRowAt c
  · exact List.forall_mem_map.2 fun c _ => readable_viewRowAt c

theorem Holds.use_inRange_viewRowAt {s : Session} {rows : List Record} {start finish c : Instant}
    (h : Holds s.db rows) (hspan : inSpan start finish rows = [viewRowAt c]) :
    s.use (.inRange start finish) = (.ok [viewAt (.ofPlatform c.toPlatform)], s) := by
  rw [h.use_inRange, hspan, newest, List.mergeSort_singleton]
  exact congrArg (Except.ok ·, s) (itemsOf_map_viewRowAt [c])

/-- A view is given for a range that starts after it, another is not given for the range that ends
with it, and one from the end of the last year is not given for the time that it is read as. -/
theorem views_misplaced :
    let s := (Session.start (.ofSettings .standard) .epoch).after
      [.save [viewAt .epoch, viewAt afterLeapSecond, viewAt endOfYears]]
    itemsOf (eventRows s.db) = [viewAt .epoch, viewAt afterLeapSecond, viewAt .epoch] ∧
    (⟨none, some halfMicrosecond, none⟩ : Cli.Period).resolve 30 halfMicrosecond =
      .ok (halfMicrosecond, halfMicrosecond) ∧
    s.use (.inRange halfMicrosecond halfMicrosecond) = (.ok [viewAt .epoch], s) ∧
    ¬ Between halfMicrosecond halfMicrosecond (viewAt .epoch).createdAt ∧
    (⟨none, some midLeapSecond, none⟩ : Cli.Period).resolve 30 afterLeapSecond =
      .ok (midLeapSecond, afterLeapSecond) ∧
    s.use (.inRange midLeapSecond afterLeapSecond) = (.ok [], s) ∧
    Between midLeapSecond afterLeapSecond (viewAt afterLeapSecond).createdAt ∧
    s.use (.inRange .epoch .epoch) = (.ok [viewAt .epoch], s) := by
  intro s
  have h : Holds s.db ([.epoch, afterLeapSecond, endOfYears].map viewRowAt) :=
    holds_save_views (.ofSettings .standard) .epoch [.epoch, afterLeapSecond, endOfYears]
  have hhalf : inSpan halfMicrosecond halfMicrosecond
      ([.epoch, afterLeapSecond, endOfYears].map viewRowAt) = [viewRowAt .epoch] := by decide
  have hleap : inSpan midLeapSecond afterLeapSecond
      ([.epoch, afterLeapSecond, endOfYears].map viewRowAt) = [] := by decide
  have hepoch : inSpan .epoch .epoch
      ([.epoch, afterLeapSecond, endOfYears].map viewRowAt) = [viewRowAt .epoch] := by decide
  refine ⟨?_, rfl, h.use_inRange_viewRowAt hhalf, by decide, rfl, ?_, by decide,
    h.use_inRange_viewRowAt hepoch⟩
  · rw [h.eventRows_eq, itemsOf_map_viewRowAt]
    decide
  · rw [h.use_inRange, hleap, newest, List.mergeSort_nil, itemsOf, List.map_nil, List.filter_nil]

end Store
end AdLedger
