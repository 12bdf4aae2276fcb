import AdLedger.Proofs.Cli.Import

/-!
# Events that are recorded

A draft that is taken is a valid item at a time of whole microseconds. To record it adds its row and
no other, and what is told is the item (`Recorded`). From its row the item is found again if and
only if the text of its target is read as the target and its time is not in a leap second
(`itemsOf_record_eq_iff`). A draft that is not taken changes nothing.
-/

namespace AdLedger

open Sql (Database Record)
open Store
open Time (Instant)

namespace Cli

variable {fs : Files} {path : String} {p : Path} {settings : Option String} {db mid : Database}
  {rows : List Record} {handle : SettingsHandle} {draft : Draft} {now : Instant} {freshId : String}
  {item : Item}

/-! ## Drafts that are taken -/

theorem Draft.toItem_eq_ok (h : draft.toItem now freshId = .ok item) :
    item.isValid = true ∧ item.createdAt = (draft.createdAt.map Instant.truncate).getD now := by
  obtain ⟨adType, -, h⟩ := Sql.bind_eq_ok.1 h
  obtain ⟨confirmationType, -, h⟩ := Sql.bind_eq_ok.1 h
  obtain ⟨url, -, h⟩ := Sql.bind_eq_ok.1 h
  dsimp only at h
  split at h
  next hv =>
    cases h
    exact ⟨hv, rfl⟩
  next => cases h

/-- The time of an item that comes from a draft is whole, if it is not in a leap second. -/
theorem Draft.whole_createdAt_iff (hnow : now.truncate = now)
    (h : draft.toItem now freshId = .ok item) :
    item.createdAt.Whole ↔ ¬ item.createdAt.InLeapSecond := by
  have hmicros : ∀ t : Instant, t.truncate.nano % 1000 = 0 := by
    intro t
    simp only [Instant.truncate]
    omega
  have hnano : item.createdAt.nano % 1000 = 0 := by
    rw [(toItem_eq_ok h).2]
    cases draft.createdAt with
    | none => exact hnow ▸ hmicros now
    | some t => exact hmicros t
  exact and_iff_right hnano

/-! ## Recording -/

/-- After an item has been recorded in a ledger, its row is there and no other new one. Its creative
instance has the items that it had before and what is read from that row; this is the item, as it
has been told, just where the text of its target is read as the target and its time is not in a leap
second. -/
structure Recorded (fs after : Files) (path : String) (p : Path) (opened : Database)
    (item : Item) : Prop where
  rows : after.rowsAt p = fs.rowsAt p ++ [(Entry.ofItem item).record]
  found : ∃ db before, Keeps after path db ∧
    (itemsOfCreative item.creativeInstanceId).on opened = (.ok before, opened) ∧
    (itemsOfCreative item.creativeInstanceId).on db =
      (.ok (before ++ itemsOf [(Entry.ofItem item).record]), db)
  same : itemsOf [(Entry.ofItem item).record] = [item] ↔
    item.TargetKept ∧ ¬ item.createdAt.InLeapSecond
  printed : ∀ styled,
    Json.read? ((Report.recorded item).render true styled) = some item.toJson

/-- The rows of the item's creative instance after its own row has been added. -/
theorem itemsOf_creative_append (rows : List Record) (item : Item) :
    itemsOf ((rows ++ [(Entry.ofItem item).record]).filter fun r =>
        (r.get 4).eq (.text item.creativeInstanceId)) =
      itemsOf (rows.filter fun r => (r.get 4).eq (.text item.creativeInstanceId)) ++
        itemsOf [(Entry.ofItem item).record] := by
  rw [List.filter_append, filter_creative_record, itemsOf_append]

theorem Keeps.record_on (hk : Keeps fs path db) (hl : fs.locate path = .ok p)
    (hs : (loadSettings settings).on fs = (.ok handle, fs)) {version : SchemaVersion}
    (ho : (Store.openLedger now : Work Database SchemaVersion).on db = (.ok version, mid))
    (hmid : Holds mid rows) (hnow : now.truncate = now)
    (hi : draft.toItem now freshId = .ok item) :
    ∃ after, (record ⟨some path, settings⟩ draft now freshId).on fs =
        (.ok (.recorded item), after) ∧
      Recorded fs after path p mid item := by
  obtain ⟨hv, -⟩ := Draft.toItem_eq_ok hi
  obtain ⟨saved, hsave, hholds, -⟩ := save_on hmid handle.settings [item]
  have hentries : entriesOf [item] = [Entry.ofItem item] := by simp [entriesOf, hv]
  rw [hentries] at hholds
  obtain ⟨after, hon, hkept, hdirectories⟩ :=
    hk.exists_withLedger_on (Store.save handle.settings [item]) now
  rw [(Work.on_bind_of_ok ho).trans hsave] at hon hkept
  have hrows : eventRows db = rows := by
    have hopened := keepsEvents_openLedger now db
    rw [ho] at hopened
    exact hopened.symm.trans hmid.eventRows_eq
  refine ⟨after, ?_, ?_, ?_, ?_, read?_render rfl item.composed_toJson⟩
  · rw [record, Work.on_bind_of_ok (requireArgument_on_of_ok hi fs), Work.on_bind_of_ok hs]
    exact Work.on_bind_of_ok hon
  · rw [hkept.rowsAt_eq (hdirectories.locate hl), hholds.eventRows_eq, hk.rowsAt_eq hl, hrows]
    rfl
  · refine ⟨saved, _, hkept, itemsOfCreative_on hmid _, ?_⟩
    rw [itemsOfCreative_on hholds, ← itemsOf_creative_append]
    rfl
  · rw [itemsOf_record_eq_iff hv, Draft.whole_createdAt_iff hnow hi]

theorem record_on_of_refused {places : Places} {fault : ArgumentFault}
    (h : draft.toItem now freshId = .error fault) (fs : Files) :
    (record places draft now freshId).on fs = (.error (.argument fault), fs) := by
  have hrequire : (requireArgument (draft.toItem now freshId) : Work Files Item).on fs =
      (.error (.argument fault), fs) := by
    rw [h]
    rfl
  rw [record, Work.on_bind_of_error hrequire]

/-- A draft that is taken is recorded wherever a ledger can be opened: one row is added, and from it
the item is found again as it has been told, if and only if the text of its target is read as the
target and its time is not in a leap second. A draft that is not taken changes nothing. -/
theorem draft_recorded_iff (draft : Draft) (now : Instant) (freshId : String) :
    (∀ fs path p settings db mid rows handle version item, Keeps fs path db →
      fs.locate path = .ok p → (loadSettings settings).on fs = (.ok handle, fs) →
      (Store.openLedger now : Work Database SchemaVersion).on db = (.ok version, mid) →
      Holds mid rows → now.truncate = now → draft.toItem now freshId = .ok item →
      ∃ after, (record ⟨some path, settings⟩ draft now freshId).on fs =
          (.ok (.recorded item), after) ∧
        Recorded fs after path p mid item) ∧
    ∀ fs places fault, draft.toItem now freshId = .error fault →
      (record places draft now freshId).on fs = (.error (.argument fault), fs) := by
  refine ⟨?_, fun fs places fault h => record_on_of_refused h fs⟩
  intro fs path p settings db mid rows handle version item hk hl hs ho hmid hnow hi
  exact hk.record_on hl hs ho hmid hnow hi

/-! ## Drafts for a new ledger -/

/-- What is said of an event of a placement. -/
def draftOf (confirmationType : String) (createdAt : Instant) (targetUrl : String) : Draft where
  adType := "notification"
  confirmationType := confirmationType
  placementId := some "p"
  creativeInstanceId := "c"
  creativeSetId := "s"
  campaignId := "k"
  advertiserId := "a"
  targetUrl := targetUrl
  segment := ""
  title := ""
  description := ""
  createdAt := some createdAt

theorem toItem_draftOf {word targetUrl : String} {confirmationType : ConfirmationType} {url : Url}
    (hword : Names.confirmationTypes.read word = .ok confirmationType)
    (htarget : Draft.target targetUrl = .ok url) (hdefined : confirmationType.isDefined = true)
    (hhost : url.hasHost = true) (t : Instant) :
    (draftOf word t targetUrl).toItem now freshId = .ok { itemOnDrive with
      createdAt := t.truncate
      confirmationType := confirmationType
      targetUrl := some url } := by
  have htype : Names.adTypes.read "notification" = .ok .notification := by cbv
  have hnotification : AdType.notification.isDefined = true := by decide
  simp only [Draft.toItem, understood, draftOf, htype, hword, htarget, Except.mapError, bind,
    Except.bind]
  exact if_pos (by simp [Item.isValid, Item.identifiers, hnotification, hdefined, hhost])

theorem toItem_view (t : Instant) : (draftOf "viewed" t "https://brave.com/").toItem now freshId =
    .ok { viewOfPlacement with createdAt := t.truncate } :=
  toItem_draftOf (by cbv) (by cbv) (by decide) (by decide) t

theorem target_driveOnHost : Draft.target "file://h//C:" = .ok Url.driveOnHost := by
  rw [Draft.target, Url.read?_driveOnHost]
  rfl

theorem toItem_clickOnDrive : (draftOf "clicked" .epoch "file://h//C:").toItem now freshId =
    .ok itemOnDrive :=
  toItem_draftOf (by cbv) target_driveOnHost (by decide) (by decide) .epoch

/-- A draft that is taken is recorded in a new ledger, and the items of its creative instance are
what is read from its row. -/
theorem exists_recorded_new (hi : draft.toItem .epoch freshId = .ok item) :
    ∃ db after recorded, (Store.openLedger .epoch : Work Database SchemaVersion).on .empty =
        (.ok .current, db) ∧
      (record ⟨some "ads.db", none⟩ draft .epoch freshId).on (besideEvents (.database db) "") =
        (.ok (.recorded item), after) ∧
      Keeps after "ads.db" recorded ∧
      (itemsOfCreative item.creativeInstanceId).on recorded =
        (.ok (itemsOf [(Entry.ofItem item).record]), recorded) := by
  obtain ⟨db, ho, hready⟩ := openLedger_on_empty .epoch
  have hk : Keeps (besideEvents (.database db) "") "ads.db" db := keeps_besideEvents (.inl rfl)
  have hl : (besideEvents (.database db) "").locate "ads.db" = .ok ["ads.db"] := by cbv
  have hs : (loadSettings none).on (besideEvents (.database db) "") =
      (.ok (.ofSettings .standard), besideEvents (.database db) "") := rfl
  obtain ⟨after, hon, hrecorded⟩ :=
    hk.record_on hl hs (hready.openLedger_on .epoch) hready.events rfl hi
  obtain ⟨recorded, before, hkept, hbefore, hfound⟩ := hrecorded.found
  have hnone : before = [] := by
    cases hbefore.symm.trans (itemsOfCreative_on hready.events item.creativeInstanceId)
    rfl
  rw [hnone, List.nil_append] at hfound
  exact ⟨db, after, recorded, ho, hon, hkept, hfound⟩

/-- A view is recorded in a new ledger and found again without the part of its time that is finer
than a microsecond, as it has been told; a mistyped one is not recorded. -/
theorem view_recorded :
    let t : Instant := ⟨1483228799, 123456789, by decide, by decide, by decide⟩
    let item : Item := { viewOfPlacement with createdAt := t.truncate }
    ∃ db fs after failed version,
      (Store.openLedger .epoch : Work Database SchemaVersion).on db = (.ok version, db) ∧
      Holds db [] ∧ Keeps fs "ads.db" db ∧
      (record ⟨some "ads.db", none⟩ (draftOf "viewed" t "https://brave.com/") .epoch "id").on fs =
        (.ok (.recorded item), after) ∧
      Recorded fs after "ads.db" ["ads.db"] db item ∧
      itemsOf [(Entry.ofItem item).record] = [item] ∧
      (record ⟨some "ads.db", none⟩ (draftOf "vew" t "https://brave.com/") .epoch "id").on fs =
        (.error (.argument (.confirmationType ⟨"vew", some .view⟩)), failed) ∧
      failed = fs := by
  intro t item
  obtain ⟨db, ho, hready⟩ := openLedger_on_empty .epoch
  let fs := besideEvents (.database db) ""
  have hk : Keeps fs "ads.db" db := keeps_besideEvents (.inl rfl)
  have hl : fs.locate "ads.db" = .ok ["ads.db"] := by cbv
  obtain ⟨htaken, -⟩ := draft_recorded_iff (draftOf "viewed" t "https://brave.com/") .epoch "id"
  obtain ⟨-, hrefused⟩ := draft_recorded_iff (draftOf "vew" t "https://brave.com/") .epoch "id"
  obtain ⟨after, hon, hrecorded⟩ := htaken fs "ads.db" ["ads.db"] none db db [] _ _ item hk hl rfl
    (hready.openLedger_on .epoch) hready.events rfl (toItem_view t)
  have hvew : (draftOf "vew" t "https://brave.com/").toItem .epoch "id" =
      .error (.confirmationType ⟨"vew", some .view⟩) := by
    have hword : Names.confirmationTypes.read "vew" = .error ⟨"vew", some .view⟩ := by cbv
    have htype : Names.adTypes.read "notification" = .ok .notification := by cbv
    simp only [Draft.toItem, understood, draftOf, htype, hword, Except.mapError, bind, Except.bind]
  exact ⟨db, fs, after, fs, _, hready.openLedger_on .epoch, hready.events, hk, hon, hrecorded,
    hrecorded.same.2 ⟨targetKept_viewOfPlacement, by decide⟩,
    hrefused fs _ _ hvew, rfl⟩

/-- A view in the leap second at the end of 2016 is told so, and found again in the second that
follows. A click whose target is a drive on a host is told, and not found again. -/
theorem events_recorded_otherwise :
    let leap : Instant := ⟨1483228799, 1000000000, by decide, by decide, by decide⟩
    let later : Instant := ⟨1483228800, 0, by decide, by decide, by decide⟩
    Instant.read? "2016-12-31T23:59:60Z" = some leap ∧
    (∃ db after recorded,
      (Store.openLedger .epoch : Work Database SchemaVersion).on .empty = (.ok .current, db) ∧
      (record ⟨some "ads.db", none⟩ (draftOf "viewed" leap "https://brave.com/") .epoch "id").on
        (besideEvents (.database db) "") =
          (.ok (.recorded { viewOfPlacement with createdAt := leap }), after) ∧
      Keeps after "ads.db" recorded ∧
      (itemsOfCreative "c").on recorded =
        (.ok [{ viewOfPlacement with createdAt := later }], recorded)) ∧
    ∃ db after recorded,
      (Store.openLedger .epoch : Work Database SchemaVersion).on .empty = (.ok .current, db) ∧
      (record ⟨some "ads.db", none⟩ (draftOf "clicked" .epoch "file://h//C:") .epoch "id").on
        (besideEvents (.database db) "") = (.ok (.recorded itemOnDrive), after) ∧
      Keeps after "ads.db" recorded ∧ (itemsOfCreative "c").on recorded = (.ok [], recorded) := by
  intro leap later
  let view : Item := { viewOfPlacement with createdAt := leap }
  have htext : leap.text = "2016-12-31T23:59:60Z" := by decide
  refine ⟨htext ▸ Instant.read?_text_of_leapEndsMinute (by decide), ?_, ?_⟩
  · have htruncate : leap.truncate = leap := by decide
    have hi : (draftOf "viewed" leap "https://brave.com/").toItem .epoch "id" = .ok view := by
      rw [toItem_view, htruncate]
    have hkept : view.TargetKept := targetKept_viewOfPlacement
    have hstored : view.stored = { viewOfPlacement with createdAt := later } := by decide
    obtain ⟨db, after, recorded, ho, hon, hkeeps, hfound⟩ := exists_recorded_new hi
    rw [itemsOf_record_of_targetKept (by decide) hkept, hstored] at hfound
    exact ⟨db, after, recorded, ho, hon, hkeeps, hfound⟩
  · obtain ⟨db, after, recorded, ho, hon, hkept, hfound⟩ := exists_recorded_new toItem_clickOnDrive
    rw [itemsOf_record, restoredItems_itemOnDrive] at hfound
    exact ⟨db, after, recorded, ho, hon, hkept, hfound⟩

end Cli
end AdLedger
