import AdLedger.Proofs.Store.TimeRanges
import AdLedger.Proofs.Time.Counting

/-!
# Events past their time

What purges take away. A purge counts back by whole days. Where that leads to before the first
instant, it fails and leaves the engine alone (`Purge.work_on_of_tooFarBack`); elsewhere it leaves
the rows from after its limit, which is so many microseconds before the word of its time
(`Purge.work_on`). Purges one after the other leave the rows from after the latest of their limits,
and none of them takes anything away when it is done again (`purges_sift`).
-/

namespace AdLedger.Store

open Sql
open Time (Instant)

/-- The first instant that there is. -/
def earliest : Instant where
  second := Time.firstSecond
  nano := 0
  firstSecond_le := Int.le_refl _
  le_lastSecond := by decide
  nano_lt := Instant.epoch.nano_lt

/-- A purge by some settings at some time. -/
structure Purge where
  settings : Settings
  now : Instant

namespace Purge

variable {p : Purge}

def work {σ : Type} [Engine σ] (p : Purge) : Work σ Unit := purge p.settings p.now

/-- The days lead back to before the first instant. -/
def TooFarBack (p : Purge) : Prop :=
  p.now.nanosFrom1601 - p.settings.retentionDays * 86400000000000 < earliest.nanosFrom1601

instance (p : Purge) : Decidable p.TooFarBack := inferInstanceAs (Decidable (_ < _))

/-- The word of its time, less the microseconds of its days. -/
def limit (p : Purge) : Int := p.now.toPlatform.toInt - p.settings.retentionDays * 86400000000

theorem tooFarBack_iff : p.TooFarBack ↔ p.now.daysBefore? p.settings.retentionDays = none := by
  rw [Instant.daysBefore?_eq_none_iff]
  simp only [TooFarBack, Instant.nanosFrom1601_eq, Instant.micros, earliest]
  omega

theorem cutoff_of_tooFarBack (h : p.TooFarBack) : p.settings.cutoff p.now =
    .error (.settings (.retentionOutOfRange p.settings.retentionDays)) := by
  rw [Settings.cutoff, tooFarBack_iff.1 h]

/-- Elsewhere the word of the cutoff is the limit. -/
theorem exists_cutoff (h : ¬ p.TooFarBack) :
    ∃ cutoff, p.settings.cutoff p.now = .ok cutoff ∧ cutoff.toPlatform.toInt = p.limit := by
  rw [tooFarBack_iff, ← ne_eq, Option.ne_none_iff_exists'] at h
  obtain ⟨cutoff, hc⟩ := h
  refine ⟨cutoff, by rw [Settings.cutoff, hc], ?_⟩
  rw [limit, Instant.toInt_toPlatform, Instant.toInt_toPlatform, Instant.micros_of_daysBefore? hc]
  omega

end Purge

/-! ## Rows by their times -/

/-- The times of all rows are integers. -/
def IntegerTimes (rows : List Record) : Prop := ∀ r ∈ rows, ∃ v, r.get 0 = .integer v

/-- The rows from after a time. -/
def above (limit : Int) (rows : List Record) : List Record :=
  rows.filter fun r => decide ((limit : ℚ) < timeOf r)

theorem IntegerTimes.above {rows : List Record} (h : IntegerTimes rows) (limit : Int) :
    IntegerTimes (above limit rows) :=
  fun r hr => h r (List.mem_of_mem_filter hr)

theorem not_le_eq_above {r : Record} {v : Int64} (h : r.get 0 = .integer v) (cutoff : Int64) :
    (!(r.get 0).le (.integer cutoff)) = decide ((cutoff.toInt : ℚ) < timeOf r) := by
  have htime : timeOf r = v.toInt := by
    rw [timeOf, h]
    rfl
  rw [h, Value.integer_le_integer, htime, ← decide_not, decide_eq_decide, Int.cast_lt,
    Int64.le_iff_toInt_le, Int.not_le]

/-- A database after some of its events have been taken away: nothing else of it is replaced. -/
structure Thinned (db after : Database) (kept : List Record) : Prop where
  events : Holds after kept
  rest : after = db.setTable ⟨layout, kept⟩

/-! ## One purge and many -/

variable {db : Database} {rows : List Record}

theorem Purge.work_on_of_tooFarBack (p : Purge) (hp : p.TooFarBack) {σ : Type} [Engine σ] (s : σ) :
    p.work.on s = (.error (.settings (.retentionOutOfRange p.settings.retentionDays)), s) := by
  rw [work, purge, cutoff_of_tooFarBack hp]
  rfl

theorem Purge.work_on (p : Purge) (h : Holds db rows) (ht : IntegerTimes rows)
    (hp : ¬ p.TooFarBack) :
    p.work.on db = (.ok (), db.setTable ⟨layout, above p.limit rows⟩) := by
  obtain ⟨cutoff, hc, hlimit⟩ := exists_cutoff hp
  have hkept : (rows.filter fun r => !(r.get 0).le (.integer cutoff.toPlatform)) =
      above p.limit rows := by
    refine List.filter_congr fun r hr => ?_
    obtain ⟨v, hv⟩ := ht r hr
    rw [not_le_eq_above hv, hlimit]
  rw [work, purge_on_eq h hc, hkept]

theorem Holds.setTable (h : Holds db rows) (kept : List Record) :
    Holds (db.setTable ⟨layout, kept⟩) kept :=
  Database.table?_setTable_self h rfl

/-- Purges leave the rows that each of them leaves. By induction on the purges, each of which starts
from what those before it have left. -/
theorem forM_work_on (h : Holds db rows) (ht : IntegerTimes rows) {p : Purge} {ps : List Purge}
    (hp : ∀ q ∈ p :: ps, ¬ q.TooFarBack) :
    ((p :: ps).forM Purge.work).on db = (.ok (), db.setTable ⟨layout,
      rows.filter fun r => (p :: ps).all fun q => decide ((q.limit : ℚ) < timeOf r)⟩) := by
  induction ps generalizing p db rows with
  | nil =>
    have hone := p.work_on h ht (hp p List.mem_cons_self)
    simp only [List.all_cons, List.all_nil, Bool.and_true]
    exact Work.on_bind_of_ok hone
  | cons q qs ih =>
    obtain ⟨hfirst, hrest⟩ := List.forall_mem_cons.1 hp
    have hnext := ih (h.setTable (above p.limit rows)) (ht.above _) hrest
    rw [above, List.filter_filter, Database.setTable_setTable] at hnext
    refine (Work.on_bind_of_ok (p.work_on h ht hfirst)).trans (hnext.trans ?_)
    congr 3
    exact List.filter_congr fun r _ => Bool.and_comm _ _

/-- What is after the latest of some limits is after each of them. -/
theorem filter_all_eq_above (rows : List Record) {ps : List Purge} {last : Purge}
    (hlast : last ∈ ps) (hle : ∀ p ∈ ps, p.limit ≤ last.limit) :
    (rows.filter fun r => ps.all fun q => decide ((q.limit : ℚ) < timeOf r)) =
      above last.limit rows := by
  refine List.filter_congr fun r _ => Bool.eq_iff_iff.2 ?_
  simp only [List.all_eq_true, decide_eq_true_eq]
  constructor
  · intro hall
    exact hall last hlast
  · intro hafter p hp
    exact (Int.cast_le.2 (hle p hp)).trans_lt hafter

/-- What is left after a limit is left as it is by a purge with no later limit. -/
theorem above_above {limit last : Int} (hle : limit ≤ last) :
    above limit (above last rows) = above last rows := by
  refine List.filter_eq_self.2 fun r hr => decide_eq_true ?_
  exact (Int.cast_le.2 hle).trans_lt (of_decide_eq_true (List.mem_filter.1 hr).2)

/-- A purge whose days lead back too far fails, whatever the engine, and sends it nothing. Any other
leaves the rows of a ledger that are from after its limit. Purges that are all possible succeed one
after the other, in any order, and leave the rows from after the latest of their limits; to do one
of them again changes nothing. -/
theorem purges_sift (h : Holds db rows) (ht : IntegerTimes rows) :
    (∀ p : Purge, p.TooFarBack → ∀ {σ : Type} [Engine σ] (s : σ), p.work.on s =
      (.error (.settings (.retentionOutOfRange p.settings.retentionDays)), s)) ∧
    (∀ p : Purge, ¬ p.TooFarBack → ∃ after, p.work.on db = (.ok (), after) ∧
      Thinned db after (above p.limit rows)) ∧
    ∀ ps : List Purge, (∀ p ∈ ps, ¬ p.TooFarBack) →
      ∀ last ∈ ps, (∀ p ∈ ps, p.limit ≤ last.limit) →
        ∃ after, (ps.forM Purge.work).on db = (.ok (), after) ∧
          Thinned db after (above last.limit rows) ∧
          ∀ p ∈ ps, p.work.on after = (.ok (), after) := by
  refine ⟨fun p hp σ _ s => p.work_on_of_tooFarBack hp s,
    fun p hp => ⟨_, p.work_on h ht hp, h.setTable _, rfl⟩, ?_⟩
  intro ps hp last hlast hle
  have hkept := filter_all_eq_above rows hlast hle
  have hrun : (ps.forM Purge.work).on db =
      (.ok (), db.setTable ⟨layout, above last.limit rows⟩) := by
    cases ps with
    | nil => cases hlast
    | cons p ps => rw [forM_work_on h ht hp, hkept]
  refine ⟨_, hrun, ⟨h.setTable _, rfl⟩, fun p hmem => ?_⟩
  rw [p.work_on (h.setTable _) (ht.above _) (hp p hmem), above_above (hle p hmem),
    Database.setTable_setTable]

/-- Of two views from the epoch and from a microsecond later, two purges leave the second one: by
the usual settings, thirty days after the epoch, and then by longer ones. A purge that counts back
4294967295 days from the epoch fails. -/
theorem views_sifted :
    let db := ((Session.start (.ofSettings .standard) .epoch).after
      [.save ([.epoch, (Instant.ofParts? 0 1000).getD .epoch].map viewAt)]).db
    let monthLater := (Instant.ofParts? 2592000 0).getD .epoch
    let distant : Purge := ⟨⟨4294967295, 50⟩, .epoch⟩
    distant.work.on db = (.error (.settings (.retentionOutOfRange 4294967295)), db) ∧
    ∃ after, ([(⟨.standard, monthLater⟩ : Purge), ⟨⟨60, 50⟩, monthLater⟩].forM Purge.work).on db =
        (.ok (), after) ∧
      Thinned db after [viewRowAt ((Instant.ofParts? 0 1000).getD .epoch)] := by
  intro db monthLater distant
  have htimed : IntegerTimes ([.epoch, (Instant.ofParts? 0 1000).getD .epoch].map viewRowAt) :=
    List.forall_mem_map.2 fun c _ => ⟨c.toPlatform, rfl⟩
  obtain ⟨hrefused, -, hsift⟩ := purges_sift
    (holds_save_views (.ofSettings .standard) .epoch
      [.epoch, (Instant.ofParts? 0 1000).getD .epoch]) htimed
  obtain ⟨after, hrun, hthin, -⟩ := hsift [⟨.standard, monthLater⟩, ⟨⟨60, 50⟩, monthLater⟩]
    (by decide) ⟨.standard, monthLater⟩ List.mem_cons_self (by decide)
  have hkept : above (⟨.standard, monthLater⟩ : Purge).limit
      ([.epoch, (Instant.ofParts? 0 1000).getD .epoch].map viewRowAt) =
        [viewRowAt ((Instant.ofParts? 0 1000).getD .epoch)] := by decide
  exact ⟨hrefused distant (by decide) db, after, hrun, hkept ▸ hthin⟩

end AdLedger.Store
