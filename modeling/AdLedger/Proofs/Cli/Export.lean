import AdLedger.Proofs.Cli.Keeping
import AdLedger.Proofs.Item.Reading
import AdLedger.Proofs.Store.RoundTrip

/-!
# Histories that are imported

An item is read from its own text just where its time is in no leap second, or in one that ends a
minute. What a ledger gives back is never in a leap second. So what is printed of a history, as a
document, is read again as the items of the history (`Exported`). It is kept by another ledger as it
is; so where the history holds all of a ledger, a new ledger into which it is imported gives the
same for every creative instance (`ImportsAlike`), but for the order.
-/

namespace AdLedger

open Time (Instant)

/-! ## Keeping what was given back -/

namespace Store

variable {s : Session} {m : Ideal} {start finish : Instant}

/-- The time of what is given back is whole, so that a second row says the same. -/
theorem Entry.returned_ofItem_returned (e : Entry) :
    (Entry.ofItem e.returned).returned = e.returned := by
  simp [Entry.ofItem, Entry.returned]

theorem returnedItems_entriesOf {entries : List Entry} {items : List Item}
    (hv : ∀ e ∈ entries, e.item.isValid = true) (hi : items.Perm (returnedItems entries)) :
    returnedItems (entriesOf items) = items := by
  have hmem : ∀ i ∈ items, i.isValid = true ∧ (Entry.ofItem i).returned = i := by
    intro i h
    obtain ⟨e, he, rfl⟩ := List.mem_map.1 (hi.subset h)
    exact ⟨by rw [Entry.isValid_returned, hv e he], e.returned_ofItem_returned⟩
  have hvalid : items.filter Item.isValid = items :=
    List.filter_eq_self.2 fun i h => (hmem i h).1
  rw [entriesOf, hvalid, returnedItems, List.map_map]
  exact (List.map_congr_left fun i h => (hmem i h).2).trans (List.map_id items)

theorem returnedItems_ofCreative (m : Ideal) (id : String) :
    returnedItems (m.ofCreative id) =
      (returnedItems m.entries).filter (·.creativeInstanceId = id) := by
  rw [returnedItems, returnedItems, List.filter_map]
  rfl

theorem Ideal.span_eq_entries
    (h : ∀ e ∈ m.entries, start.toPlatform ≤ e.time ∧ e.time ≤ finish.toPlatform) :
    m.span start finish = m.entries :=
  List.filter_eq_self.2 fun e he => decide_eq_true (h e he)

/-- A range that every row is in has all entries in it. -/
theorem Represents.span_eq_entries (h : Represents s m)
    (hw : ∀ r ∈ eventRows s.db, within start.toPlatform finish.toPlatform r = true) :
    m.span start finish = m.entries := by
  rw [h.ready.events.eventRows_eq] at hw
  refine Ideal.span_eq_entries fun e he => ?_
  have hrow := hw e.record (List.mem_map_of_mem he)
  rw [within_record, Bool.and_eq_true] at hrow
  exact hrow.imp of_decide_eq_true of_decide_eq_true

/-- For each creative instance, a ledger gives those of the items that are of it. -/
def GivesOfCreative (s : Session) (items : List Item) : Prop :=
  ∀ id, ∃ found, (s.use (.ofCreative id)).1 = .ok found ∧
    found.Perm (items.filter (·.creativeInstanceId = id))

theorem Answers.givesOfCreative (h : Answers returnedItems s m) :
    GivesOfCreative s (returnedItems m.entries) := by
  intro id
  obtain ⟨entries, hp, hu⟩ := h.ofCreative id
  refine ⟨returnedItems entries, by rw [hu], ?_⟩
  rw [← returnedItems_ofCreative]
  exact hp.map Entry.returned

theorem valid_and_targetKept (handle : SettingsHandle) {uses : List Use}
    (h : ∀ i ∈ savedIn uses, ∀ url ∈ i.targetUrl, Url.read? url.text = some url) :
    ∀ e ∈ ((Ideal.start handle).after uses).entries,
      e.item.isValid = true ∧ e.item.TargetKept := by
  intro e he
  obtain ⟨hv, hmem⟩ := valid_and_savedIn he
  exact ⟨hv, Item.targetKept_iff.2 (h e.item hmem)⟩

/-- A new ledger keeps what a ledger gave back as it is. -/
theorem givesOfCreative_of_saved {handle : SettingsHandle} {entries : List Entry}
    {items : List Item} (hk : ∀ e ∈ entries, e.item.isValid = true ∧ e.item.TargetKept)
    (hi : items.Perm (returnedItems entries))
    (h : Represents s ((Ideal.start handle).use (.save items))) : GivesOfCreative s items := by
  have hentries : ((Ideal.start handle).use (.save items)).entries = entriesOf items := rfl
  have hkept : ∀ e ∈ entriesOf items, e.item.isValid = true ∧ e.item.TargetKept := by
    intro e he
    obtain ⟨i, hmem, rfl⟩ := List.mem_map.1 he
    obtain ⟨hmem, hvalid⟩ := List.mem_filter.1 hmem
    obtain ⟨d, hd, rfl⟩ := List.mem_map.1 (hi.subset hmem)
    exact ⟨hvalid, (hk d hd).2⟩
  have hgives := (h.answers.returned hkept).givesOfCreative
  rwa [hentries, returnedItems_entriesOf (fun e he => (hk e he).1) hi] at hgives

/-- Two ledgers give the same items for each creative instance, each as often. -/
def SameOfCreative (s t : Session) : Prop :=
  ∀ id, ∃ xs ys, (s.use (.ofCreative id)).1 = .ok xs ∧ (t.use (.ofCreative id)).1 = .ok ys ∧
    xs.Perm ys

theorem GivesOfCreative.same {t : Session} {items more : List Item} (hs : GivesOfCreative s items)
    (ht : GivesOfCreative t more) (hp : items.Perm more) : SameOfCreative s t := by
  intro id
  obtain ⟨xs, hxs, hpx⟩ := hs id
  obtain ⟨ys, hys, hpy⟩ := ht id
  exact ⟨xs, ys, hxs, hys, hpx.trans ((hp.filter _).trans hpy.symm)⟩

theorem Represents.save_on (h : Represents s m) (items : List Item) :
    ∃ after, (save s.handle.settings items).on s.db = (.ok (), after) ∧
      Represents ⟨s.handle, after⟩ (m.use (.save items)) := by
  obtain ⟨after, ho, -⟩ := Store.save_on h.ready.events s.handle.settings items
  have hrep := (h.use_save items).2
  simp only [Session.use, Session.work, Work.on_bind, ho, Work.on_pure] at hrep
  exact ⟨after, ho, hrep⟩

/-- A database without events, whether or not a ledger has been opened in it. -/
def Unused (db : Sql.Database) : Prop := db = Sql.Database.empty ∨ Ready db []

theorem represents_start_of_ready {db : Sql.Database} (h : Ready db []) (handle : SettingsHandle) :
    Represents ⟨handle, db⟩ (Ideal.start handle) :=
  ⟨rfl, h, by simp [Ideal.start]⟩

/-- A ledger opened in it has no entries. -/
theorem Unused.openLedger_on {db : Sql.Database} (h : Unused db) (handle : SettingsHandle)
    (now : Instant) :
    ∃ version after, (openLedger now : Work Sql.Database SchemaVersion).on db =
      (.ok version, after) ∧ Represents ⟨handle, after⟩ (Ideal.start handle) := by
  obtain rfl | hready := h
  · obtain ⟨after, ho, hready⟩ := openLedger_on_empty now
    exact ⟨_, after, ho, represents_start_of_ready hready handle⟩
  · exact ⟨_, db, hready.openLedger_on now, represents_start_of_ready hready handle⟩

end Store

/-! ## Reading what was printed -/

namespace Cli

open Store

/-- What is printed of a report as a document is read as that document. -/
theorem read?_render {report : Report} {j : Json} (h : report.toJson? = some j) (hj : j.Composed)
    (styled : Bool) : Json.read? (report.render true styled) = some j := by
  have hrender : report.render true styled = j.line ++ "\n" := by
    simp [Report.render, Report.joined, h]
  rw [hrender, hj.read?_line.2]

/-- The number that stands in a line after some words. -/
def numberAfter? (words line : String) : Option Nat :=
  if words.toList <+: line.toList then
    Text.natural? ((line.toList.drop words.toList.length).takeWhile Char.isDigit)
  else none

theorem numberAfter?_append (words : String) (n : Nat) {rest : String}
    (h : rest.toList.takeWhile Char.isDigit = []) :
    numberAfter? words (words ++ Text.natural n ++ rest) = some n := by
  have hline : (words ++ Text.natural n ++ rest).toList =
      words.toList ++ (Nat.toDigits 10 n ++ rest.toList) := by
    simp [Text.natural]
  have hdigits : (Nat.toDigits 10 n ++ rest.toList).takeWhile Char.isDigit = Nat.toDigits 10 n := by
    rw [List.takeWhile_append_of_pos fun c => Text.isDigit_of_mem_toDigits, h, List.append_nil]
  rw [numberAfter?, hline, if_pos (List.prefix_append _ _), List.drop_left, hdigits,
    Text.natural?_toDigits]

theorem numberAfter?_append_natural (words : String) (n : Nat) :
    numberAfter? words (words ++ Text.natural n) = some n := by
  have happend := @numberAfter?_append words n "" rfl
  rwa [String.append_empty] at happend

/-- The items in what was printed of found ones. -/
def printedItems? (printed : String) : Option Json := do
  match ← (← Json.read? printed).fields? ["items"] with
  | [items] => items
  | _ => none

/-- The document of found items. -/
def foundDocument (items : List Item) : Json :=
  .record [("items", .array (items.map Item.toJson)), ("count", .ofNat items.length)]

theorem composed_foundDocument (items : List Item) : (foundDocument items).Composed := by
  refine .record ?_
  simp only [List.forall_mem_cons]
  exact ⟨Item.composed_array items, .nat items.length, nofun⟩

theorem fields?_foundDocument (items : List Item) :
    (foundDocument items).fields? ["items"] = some [some (.array (items.map Item.toJson))] := by
  have hmem : ∀ m ∈ [("items", Json.array (items.map Item.toJson))],
      m ∈ [("items", Json.array (items.map Item.toJson)), ("count", .ofNat items.length)] := by simp
  exact Json.fields?_record (by simp) hmem

theorem printedItems?_found (items : List Item) (styled : Bool) :
    printedItems? (Report.render true styled (.found items)) =
      some (.array (items.map Item.toJson)) := by
  have hread : Json.read? (Report.render true styled (.found items)) =
      some (foundDocument items) := read?_render rfl (composed_foundDocument items) styled
  simp only [printedItems?, hread, Option.bind_eq_bind, Option.bind_some, fields?_foundDocument]

/-- To ask succeeds where there is an answer, and changes nothing. -/
theorem ask_on_eq_ok_iff {α : Type} {question : Files → Except FileFault α} {a : α}
    {fs after : Files} :
    (ask question).on fs = (.ok a, after) ↔ question fs = .ok a ∧ after = fs := by
  show ((question fs).mapError _, fs) = (.ok a, after) ↔ _
  cases question fs with
  | ok b => simp [Except.mapError, eq_comm]
  | error fault => simp [Except.mapError]

theorem requireArgument_on_of_ok {α : Type} {result : Except ArgumentFault α} {a : α}
    (h : result = .ok a) (fs : Files) :
    (requireArgument result : Work Files α).on fs = (.ok a, fs) := by
  rw [h]
  rfl

theorem readItems_on {fs : Files} {file content : String} {items : List Item}
    (hr : fs.read file = .ok content) (hi : Item.readAll? content = some items) :
    (readItems file).on fs = (.ok items, fs) := by
  rw [readItems, Work.on_bind_of_ok (ask_on_eq_ok_iff.2 ⟨hr, rfl⟩), hi]
  rfl

/-! ## The two commands -/

section Commands

variable {fs : Files} {path : String} {settings : Option String} {handle : SettingsHandle}
  {now : Instant}

theorem history_on {s : Session} {m : Ideal} {start finish : Instant} {items : List Item}
    {period : Period} (h : Represents s m) (hfound : s.use (.inRange start finish) = (.ok items, s))
    (hk : Keeps fs path s.db) (hs : (loadSettings settings).on fs = (.ok handle, fs))
    (hp : period.resolve handle.settings.retentionDays now = .ok (start, finish)) :
    ∃ after, (history ⟨some path, settings⟩ period false now).on fs = (.ok (.found items), after) ∧
      Keeps after path s.db := by
  have hquery : (itemsInRange start finish).on s.db = (.ok items, s.db) := by
    rw [h.use_inRange] at hfound
    rw [itemsInRange_on h.ready.events, (Prod.mk.inj hfound).1]
  obtain ⟨after, hon, hafter⟩ := 
    hk.withLedger_on ((Work.on_bind_of_ok (h.ready.openLedger_on now)).trans hquery)
  refine ⟨after, ?_, hafter⟩
  rw [history, Work.on_bind_of_ok hs, Work.on_bind_of_ok (requireArgument_on_of_ok hp fs)]
  exact Work.on_bind_of_ok hon

/-- An import has succeeded once its items have been saved in the ledger. -/
theorem importItems_on_of_saved {places : Places} {after : Files} {file : String}
    {items : List Item} (hr : (readItems file).on fs = (.ok items, fs))
    (hs : (loadSettings places.settings).on fs = (.ok handle, fs))
    (hl : (withLedger places.database now (save handle.settings items)).on fs = (.ok (), after)) :
    (importItems places file now).on fs = (.ok (.imported file (items.filter Item.isValid).length
      (items.length - (items.filter Item.isValid).length)), after) := by
  rw [importItems, Work.on_bind_of_ok hr, Work.on_bind_of_ok hs]
  exact Work.on_bind_of_ok hl

theorem importItems_on {file : String} {items : List Item} {db : Sql.Database}
    (hr : (readItems file).on fs = (.ok items, fs)) (hk : Keeps fs path db) (hu : Unused db)
    (hs : (loadSettings settings).on fs = (.ok handle, fs)) (now : Instant) :
    ∃ after db', (importItems ⟨some path, settings⟩ file now).on fs =
      (.ok (.imported file (items.filter Item.isValid).length
        (items.length - (items.filter Item.isValid).length)), after) ∧
      Keeps after path db' ∧
      Represents ⟨handle, db'⟩ ((Ideal.start handle).use (.save items)) := by
  obtain ⟨version, mid, ho, hmid⟩ := hu.openLedger_on handle now
  obtain ⟨db', hsave, hdb'⟩ := hmid.save_on items
  obtain ⟨after, hon, hafter⟩ := hk.withLedger_on ((Work.on_bind_of_ok ho).trans hsave)
  exact ⟨after, db', importItems_on_of_saved hr hs hon, hafter, hdb'⟩

end Commands

/-- The history of a range of time tells of a ledger's items there, wherever the ledger is kept;
what is printed of them as a document has them in an array, which is read as it is written. -/
structure Exported (s : Session) (start finish : Instant) (items : List Item) (array : Json) :
    Prop where
  found : s.use (.inRange start finish) = (.ok items, s)
  history : ∀ fs path settings handle period now, Keeps fs path s.db →
    (loadSettings settings).on fs = (.ok handle, fs) →
    period.resolve handle.settings.retentionDays now = .ok (start, finish) →
    ∃ after, (history ⟨some path, settings⟩ period false now).on fs =
      (.ok (.found items), after) ∧ Keeps after path s.db
  printed : ∀ styled, printedItems? (Report.render true styled (.found items)) = some array
  line : Json.read? array.line = some array

/-- A file that is read as an array is imported into any database without events, so that of `count`
items none is skipped, and the ledger there gives the same for each creative instance. -/
def ImportsAlike (s : Session) (array : Json) (count : Nat) : Prop :=
  ∀ fs file content path db settings handle now, Files.read fs file = .ok content →
    Json.read? content = some array → Keeps fs path db → Unused db →
    (loadSettings settings).on fs = (.ok handle, fs) →
    ∃ after db', (importItems ⟨some path, settings⟩ file now).on fs =
      (.ok (.imported file count 0), after) ∧ Keeps after path db' ∧ SameOfCreative s ⟨handle, db'⟩

/-- An item is read from its text, just where a leap second that it is in ends its minute. The
history of a range that every row of a ledger is in, whatever the times of what was saved, when it
is printed as a document and imported where no events are, gives a ledger that gives the same items
for every creative instance. -/
theorem exported_items_imported :
    (∀ i : Item, (∀ url ∈ i.targetUrl, Url.read? url.text = some url) →
      (Item.read? i.text = some i ↔ i.createdAt.LeapEndsMinute)) ∧
    ∀ (handle : SettingsHandle) (now : Instant) (uses : List Use) (start finish : Instant),
      (∀ i ∈ savedIn uses, ∀ url ∈ i.targetUrl, Url.read? url.text = some url) →
      (∀ r ∈ eventRows ((Session.start handle now).after uses).db,
        within start.toPlatform finish.toPlatform r = true) →
      ∃ items array,
        Exported ((Session.start handle now).after uses) start finish items array ∧
        ImportsAlike ((Session.start handle now).after uses) array items.length := by
  refine ⟨fun i hurl => ?_, fun handle now uses start finish hurl hw => ?_⟩
  · rw [Item.read?_text hurl, Option.some_inj, Item.written_eq_self_iff]
  have hrep := Represents.run handle now uses
  have hkept := valid_and_targetKept handle hurl
  have hanswers := hrep.answers.returned hkept
  obtain ⟨entries, hp, -, hfound⟩ := hanswers.inRange start finish
  rw [hrep.span_eq_entries hw] at hp
  have hitems : ∀ i ∈ returnedItems entries, i.isValid = true ∧
      (∀ url ∈ i.targetUrl, Url.read? url.text = some url) ∧ i.createdAt.LeapEndsMinute := by
    intro i hi
    obtain ⟨e, he, rfl⟩ := List.mem_map.1 hi
    obtain ⟨hv, hk⟩ := hkept e (hp.subset he)
    exact ⟨by rw [Entry.isValid_returned, hv], Item.targetKept_iff.1 hk,
      fun hleap => absurd hleap (Instant.whole_ofPlatform _).2⟩
  refine ⟨returnedItems entries, .array ((returnedItems entries).map Item.toJson), ?_, ?_⟩
  · exact ⟨hfound, fun _ _ _ _ _ _ hk hs hperiod => history_on hrep hfound hk hs hperiod,
      printedItems?_found _, (Item.composed_array _).read?_line.1⟩
  · intro fs file content path db settings other later hr hc hk hu hs
    have hread := readItems_on hr (Item.readAll?_of_read? (fun i hi => (hitems i hi).2.1)
      (fun i hi => (hitems i hi).2.2) hc)
    obtain ⟨after, db', hon, hafter, hsaved⟩ := importItems_on hread hk hu hs later
    have hvalid : (returnedItems entries).filter Item.isValid = returnedItems entries :=
      List.filter_eq_self.2 fun i hi => (hitems i hi).1
    rw [hvalid, Nat.sub_self] at hon
    refine ⟨after, db', hon, hafter, hanswers.givesOfCreative.same ?_ (hp.map Entry.returned).symm⟩
    exact givesOfCreative_of_saved hkept (hp.map Entry.returned) hsaved

/-- A database and a file of events beside it. -/
def besideEvents (database : Node) (content : String) : Files :=
  ⟨[(["ads.db"], database), (["events.json"], .text content)], []⟩

theorem keeps_besideEvents {database : Node} {db : Sql.Database} {content : String}
    (h : database = .database db ∨ database = .text "" ∧ db = Sql.Database.empty) :
    Keeps (besideEvents database content) "ads.db" db := by
  refine ⟨by decide, ["ads.db"], by cbv, rfl, ?_⟩
  obtain rfl | ⟨rfl, rfl⟩ := h
  · exact .inl rfl
  · exact .inr ⟨rfl, rfl⟩

theorem read_besideEvents (database : Node) (content : String) :
    (besideEvents database content).read "events.json" = .ok content := by
  have hl : (besideEvents database content).locate "events.json" = .ok ["events.json"] := by cbv
  rw [Files.read, Files.find_eq_ok.2 ⟨hl, rfl⟩]
  rfl

/-- Two views of one creative instance. -/
def twoViews : List Use := [.save [viewInLeapSecond, viewOfPlacement]]

theorem read?_target_twoViews :
    ∀ i ∈ savedIn twoViews, ∀ url ∈ i.targetUrl, Url.read? url.text = some url := by
  have hview := Item.targetKept_iff.1 targetKept_viewOfPlacement
  intro i hi
  simp only [twoViews, savedIn, List.flatMap_cons, List.flatMap_nil, List.append_nil,
    List.mem_cons, List.not_mem_nil, or_false] at hi
  obtain rfl | rfl := hi <;> exact hview

/-- Two views, one of them in a leap second, are told of and imported. The one in the leap second
has been kept at whole microseconds of the next one, and is imported so. -/
theorem exported_views_imported :
    let s := (Session.start (.ofSettings .standard) .epoch).after twoViews
    Item.read? viewInLeapSecond.text = some viewInLeapSecond ∧
    ∃ items told imported db ys, ∃ array : Json,
      (history ⟨some "ads.db", none⟩ ⟨none, some .epoch, some viewInLeapSecond.createdAt⟩ false
        .epoch).on (besideEvents (.database s.db) "") = (.ok (.found items), told) ∧
      printedItems? (Report.render true false (.found items)) = some array ∧
      (importItems ⟨some "ads.db", none⟩ "events.json" .epoch).on
        (besideEvents (.text "") array.line) = (.ok (.imported "events.json" 2 0), imported) ∧
      Keeps imported "ads.db" db ∧
      ((⟨.ofSettings .standard, db⟩ : Session).use (.ofCreative "c")).1 = .ok ys ∧
      ys.Perm [viewInLeapSecond.stored, viewOfPlacement] := by
  intro s
  let m := (Ideal.start (.ofSettings .standard)).after twoViews
  have hrep : Represents s m := .run _ _ _
  have hentries : m.entries = [viewInLeapSecond, viewOfPlacement].map Entry.ofItem := by decide
  have hrows : ∀ r ∈ eventRows s.db, within Instant.epoch.toPlatform
      viewInLeapSecond.createdAt.toPlatform r = true := by
    rw [hrep.ready.events.eventRows_eq, hentries]
    decide
  obtain ⟨items, array, he, hi⟩ := exported_items_imported.2 (.ofSettings .standard) .epoch twoViews
    .epoch viewInLeapSecond.createdAt read?_target_twoViews hrows
  have hanswers := hrep.answers.returned (valid_and_targetKept _ read?_target_twoViews)
  obtain ⟨entries, hp, -, hfound⟩ := hanswers.inRange .epoch viewInLeapSecond.createdAt
  have hlength : items.length = 2 := by
    rw [(Except.ok.inj (Prod.mk.inj (he.found.symm.trans hfound)).1), returnedItems,
      List.length_map, hp.length_eq]
    decide
  obtain ⟨told, htold, -⟩ := he.history (besideEvents (.database s.db) "") "ads.db" none
    (.ofSettings .standard) ⟨none, some .epoch, some viewInLeapSecond.createdAt⟩ .epoch
    (keeps_besideEvents (.inl rfl)) rfl rfl
  obtain ⟨imported, db, himported, hkeeps, hsame⟩ := hi (besideEvents (.text "") array.line)
    "events.json" array.line "ads.db" Sql.Database.empty none (.ofSettings .standard) .epoch
    (read_besideEvents _ _) he.line (keeps_besideEvents (.inr ⟨rfl, rfl⟩)) (.inl rfl) rfl
  obtain ⟨xs, ys, hxs, hys, hxy⟩ := hsame "c"
  obtain ⟨given, hgiven, hpg⟩ := hanswers.givesOfCreative "c"
  rw [hlength] at himported
  refine ⟨(exported_items_imported.1 _ ?_).2 (by decide), items, told, imported, db, ys, array, htold,
    he.printed false, himported, hkeeps, hys, hxy.symm.trans ?_⟩
  · exact read?_target_twoViews _ (by decide)
  · cases hxs.symm.trans hgiven
    exact hpg

/-- A view in the middle of a leap second that follows the start of a minute. -/
def viewInNoonLeapSecond : Item :=
  { viewOfPlacement with
    createdAt := ⟨43200, 1500000000, by decide, by decide, by decide⟩ }

/-- Its time is written like the middle of the next second, and so it is read. -/
theorem viewInNoonLeapSecond_read_later :
    viewInNoonLeapSecond.createdAt.text = "1970-01-01T12:00:01.500Z" ∧
    (∀ url ∈ viewInNoonLeapSecond.targetUrl, Url.read? url.text = some url) ∧
    Item.read? viewInNoonLeapSecond.text = some { viewInNoonLeapSecond with
      createdAt := ⟨43201, 500000000, by decide, by decide, by decide⟩ } ∧
    Item.read? viewInNoonLeapSecond.text ≠ some viewInNoonLeapSecond := by
  have hurl : ∀ url ∈ viewInNoonLeapSecond.targetUrl, Url.read? url.text = some url :=
    Item.targetKept_iff.1 targetKept_viewOfPlacement
  refine ⟨by decide, hurl, Item.read?_text hurl, fun heq => ?_⟩
  have htime := Item.written_eq_self_iff.1 (Option.some.inj ((Item.read?_text hurl).symm.trans heq))
  exact absurd htime (by decide)

end Cli
end AdLedger
