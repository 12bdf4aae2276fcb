import AdLedger.Proofs.Cli.Export
import AdLedger.Proofs.Item.Lenient

/-!
# Items that are imported

An import reads a document as an array of items. Where it succeeds, the rows of the ledger are those
from before and after them the rows of the valid items, in their order, and it tells how many these
are and how many others there were (`Imported`). Where it fails, the rows are as before. A text that
may say anything can be replaced in the document, and the rows of all other items are the same
(`Isolated`).
-/

namespace AdLedger

open Sql (Database Record Row Statement)
open Store
open Time (Instant)

/-! ## Saving -/

namespace Store

variable {db after : Database} {rows : List Record} {settings : Settings} {items : List Item}

/-- The rows of the valid ones among items. -/
def rowsFor (items : List Item) : List Record :=
  (items.filter Item.isValid).map fun i => (encode i).map Sql.Scalar.toValue

theorem map_record_entriesOf (items : List Item) :
    (entriesOf items).map Entry.record = rowsFor items := by
  rw [entriesOf, List.map_map]
  rfl

theorem rowsFor_append (items more : List Item) :
    rowsFor (items ++ more) = rowsFor items ++ rowsFor more := by
  simp [rowsFor]

theorem length_rowsFor (items : List Item) :
    (rowsFor items).length = (items.filter Item.isValid).length :=
  List.length_map _

/-- Without the table of events nothing is inserted, so that there was nothing to insert. -/
theorem performAll_inserts_of_none (h : db.table? tableName = none) {bs : List (List Item)}
    {result result' : List Row}
    (hp : db.performAll result (bs.filterMap insertBatch) = .ok (after, result')) :
    after = db ∧ entriesOf bs.flatten = [] := by
  induction bs with
  | nil =>
    cases hp
    exact ⟨rfl, rfl⟩
  | cons b bs ih =>
    cases hs : insertBatch b with
    | none =>
      have hnil : entriesOf b = [] := by simpa [insertBatch, entriesOf] using hs
      rw [List.filterMap_cons_none hs] at hp
      obtain ⟨rfl, hrest⟩ := ih hp
      exact ⟨rfl, by rw [List.flatten_cons, entriesOf_append, hnil, hrest, List.append_nil]⟩
    | some s =>
      obtain ⟨-, rfl⟩ : _ ∧ Statement.run _ _ = s := by simpa [insertBatch] using hs
      rw [List.filterMap_cons_some hs] at hp
      obtain ⟨⟨mid, found⟩, hm, -⟩ := Sql.bind_eq_ok.1 hp
      obtain ⟨filled, values, records, hfill, hm⟩ := Statement.filled_of_perform hm
      have hneeds : filled.needs? = some tableName := Sql.Command.needs?_fill hfill
      exact absurd h (Database.table?_ne_none_of_needs? hneeds hm)

/-- Items are saved where all inserts are carried out. -/
theorem performAll_of_save
    (h : (save settings items : Work Database Unit).on db = (.ok (), after)) :
    ∃ result, db.performAll [] (inserts settings.effectiveBatchSize items) =
      .ok (after, result) := by
  by_cases hnil : inserts settings.effectiveBatchSize items = []
  · simp only [save, hnil] at h
    cases h
    exact ⟨[], by rw [hnil]; rfl⟩
  · simp only [save, List.isEmpty_iff, hnil, if_false] at h
    obtain ⟨result, mid, ht, h⟩ := Work.on_bind_eq_ok h
    cases h
    rw [transact_on, Database.transact_eq] at ht
    split at ht
    next mid' result' hp =>
      cases ht
      exact ⟨_, hp⟩
    next => cases ht

/-- To save items adds their rows, whatever the size of a batch. -/
theorem HasRows.save (h : HasRows db rows)
    (hs : (Store.save settings items : Work Database Unit).on db = (.ok (), after)) :
    HasRows after (rows ++ rowsFor items) := by
  obtain h | ⟨hnone, rfl⟩ := h
  · obtain ⟨saved, hsaved, hholds, -⟩ := save_on h settings items
    cases hs.symm.trans hsaved
    rw [map_record_entriesOf] at hholds
    exact .inl hholds
  · obtain ⟨result, hp⟩ := performAll_of_save hs
    obtain ⟨rfl, hnil⟩ := performAll_inserts_of_none hnone hp
    rw [flatten_batches] at hnil
    rw [← map_record_entriesOf, hnil]
    exact .inr ⟨hnone, rfl⟩

end Store

namespace Cli

variable {fs after : Files} {path file : String} {p : Path} {places : Places} {db mid : Database}
  {rows : List Record} {elements : List Json} {items : List Item} {handle : SettingsHandle}
  {now : Instant} {report : Report}

/-! ## Reading the items -/

/-- A file holds a document that is an array, and its elements are read as items. -/
structure ItemsIn (fs : Files) (file : String) (elements : List Json) (items : List Item) :
    Prop where
  document : ∃ content, fs.read file = .ok content ∧ Json.read? content = some (.array elements)
  items : elements.mapM Item.ofJson? = some items

theorem ItemsIn.readItems_on (h : ItemsIn fs file elements items) :
    (readItems file).on fs = (.ok items, fs) := by
  obtain ⟨content, hr, hc⟩ := h.document
  refine Cli.readItems_on hr ?_
  rw [Item.readAll?, hc]
  exact h.items

theorem readItems_on_eq_ok (h : (readItems file).on fs = (.ok items, after)) :
    after = fs ∧ ∃ elements, ItemsIn fs file elements items := by
  obtain ⟨content, mid, hask, hrest⟩ := Work.on_bind_eq_ok h
  obtain ⟨hr, rfl⟩ := ask_on_eq_ok_iff.1 hask
  cases hi : Item.readAll? content with
  | none =>
    rw [hi] at hrest
    cases hrest
  | some found =>
    rw [hi] at hrest
    cases hrest
    obtain ⟨document, hc, hi⟩ := Option.bind_eq_some_iff.1 hi
    obtain ⟨elements, helements, hi⟩ := Option.bind_eq_some_iff.1 hi
    cases document with
    | array elements' =>
      cases helements
      exact ⟨rfl, elements, ⟨content, hr, hc⟩, hi⟩
    | _ => cases helements

/-! ## Importing -/

/-- The two numbers in what was printed of an import. -/
def printedCounts? (printed : String) : Option (Nat × Nat) := do
  match ← (← Json.read? printed).fields? ["imported", "skipped"] with
  | [some imported, some skipped] => return (← imported.nat?, ← skipped.nat?)
  | _ => none

theorem printedCounts?_imported (file : String) (kept skipped : Nat) (styled : Bool) :
    printedCounts? (Report.render true styled (.imported file kept skipped)) =
      some (kept, skipped) := by
  let members := [("imported", Json.ofNat kept), ("skipped", .ofNat skipped)]
  have hcomposed : (Json.record members).Composed := by
    refine .record ?_
    simp only [members, List.forall_mem_cons]
    exact ⟨.nat kept, .nat skipped, nofun⟩
  have hread : Json.read? (Report.render true styled (.imported file kept skipped)) =
      some (.record members) := read?_render rfl hcomposed styled
  have hfields : (Json.record members).fields? ["imported", "skipped"] =
      some [some (.ofNat kept), some (.ofNat skipped)] :=
    Json.fields?_record (by simp [members]) fun _ h => h
  rw [printedCounts?, hread, Option.bind_eq_bind, Option.bind_some, hfields]
  simp [Json.nat?, Json.ofNat]

/-- The two numbers in the lines that tell of an import; the second line is only there if something
has been skipped. -/
def countsTold? : List String → Option (Nat × Nat)
  | [kept] => (numberAfter? "Imported " kept).map (·, 0)
  | [kept, skipped] => do
    return (← numberAfter? "Imported " kept, ← numberAfter? "  Skipped " skipped)
  | _ => none

theorem countsTold?_imported (file : String) (kept skipped : Nat)
    (style : Style → String → String) :
    countsTold? ((Report.imported file kept skipped).lines style) = some (kept, skipped) := by
  have hkept : numberAfter? "Imported " s!"Imported {Text.natural kept} item(s) from {file}" =
      some kept := by
    have hrest : (" item(s) from " ++ file).toList.takeWhile Char.isDigit = [] := by
      rw [String.toList_append]
      rfl
    rw [← numberAfter?_append "Imported " kept hrest, ← String.append_assoc]
    rfl
  have hskipped : numberAfter? "  Skipped " s!"  Skipped {Text.natural skipped} invalid item(s)" =
      some skipped := numberAfter?_append _ _ rfl
  by_cases hpos : 0 < skipped
  · rw [Report.lines, if_pos hpos, countsTold?, hkept, hskipped]
    rfl
  · obtain rfl : skipped = 0 := Nat.eq_zero_of_not_pos hpos
    rw [Report.lines, if_neg hpos, countsTold?, hkept]
    rfl

/-- An import that has succeeded, of elements that are these items: at the place of the ledger, the
rows are those from before and after them those of the valid items. It tells how many have been
added, and how many elements were skipped; so does what is printed of it, as a document and as
lines. -/
structure Imported (fs after : Files) (p : Path) (file : String) (elements : List Json)
    (items : List Item) (report : Report) (skipped : Nat) : Prop where
  rows : after.rowsAt p = fs.rowsAt p ++ rowsFor items
  told : report = .imported file (rowsFor items).length skipped
  all : (rowsFor items).length + skipped = elements.length
  printed : ∀ styled,
    printedCounts? (report.render true styled) = some ((rowsFor items).length, skipped)
  lines : ∀ style, countsTold? (report.lines style) = some ((rowsFor items).length, skipped)

theorem importItems_on_eq_ok
    (h : (importItems places file now).on fs = (.ok report, after)) : ∃ items handle,
      (readItems file).on fs = (.ok items, fs) ∧
      (withLedger places.database now (Store.save (SettingsHandle.settings handle) items)).on fs =
        (.ok (), after) ∧
      report = .imported file (rowsFor items).length (items.length - (rowsFor items).length) := by
  obtain ⟨items, mid, hr, hrest⟩ := Work.on_bind_eq_ok h
  obtain ⟨rfl, -⟩ := readItems_on_eq_ok hr
  obtain ⟨handle, mid', hs, hledger⟩ := Work.on_bind_eq_ok hrest
  have hreads : ((loadSettings places.settings).on mid).2 = mid := reads_loadSettings _ mid
  obtain rfl : mid' = mid := by rwa [hs] at hreads
  obtain ⟨_, last, hw, htold⟩ := Work.on_bind_eq_ok hledger
  rw [Work.on_pure, ← length_rowsFor] at htold
  obtain ⟨hreport, rfl⟩ := Prod.mk.inj htold
  exact ⟨items, handle, hr, hw, (Except.ok.inj hreport).symm⟩

theorem Keeps.imported (hk : Keeps fs path db) (hl : fs.locate path = .ok p)
    (hrows : HasRows db rows) {settings : Option String}
    (h : (importItems ⟨some path, settings⟩ file now).on fs = (.ok report, after)) :
    ∃ elements items skipped, ItemsIn fs file elements items ∧
      Imported fs after p file elements items report skipped := by
  obtain ⟨items, handle, hr, hw, rfl⟩ := importItems_on_eq_ok h
  obtain ⟨-, elements, hitems⟩ := readItems_on_eq_ok hr
  obtain ⟨kept, hon, hkept, hdirectories⟩ :=
    hk.exists_withLedger_on (Store.save handle.settings items) now
  obtain ⟨hresult, rfl⟩ := Prod.mk.inj (hw.symm.trans hon)
  have hsaved : (Store.openLedger now >>= fun _ => Store.save handle.settings items).on db =
      (.ok (), _) := Prod.ext hresult.symm rfl
  obtain ⟨version, mid, ho, hs⟩ := Work.on_bind_eq_ok hsaved
  have hmid := hrows.openLedger now
  rw [ho] at hmid
  refine ⟨elements, items, _, hitems, ?_, rfl, ?_, printedCounts?_imported file _ _,
    countsTold?_imported file _ _⟩
  · rw [hkept.rowsAt_eq (hdirectories.locate hl), (hmid.save hs).eventRows_eq, hk.rowsAt_eq hl,
      hrows.eventRows_eq]
  · have hle : (rowsFor items).length ≤ items.length :=
      (length_rowsFor items).trans_le (List.length_filter_le _ _)
    rw [Nat.add_sub_cancel' hle, Json.length_of_mapM hitems.items]

/-- An import that fails leaves the rows at the place of a ledger as they are. -/
theorem rowsAt_of_import_error {settings : Option String} {failure : Failure}
    (hl : fs.locate path = .ok p)
    (h : (importItems ⟨some path, settings⟩ file now).on fs = (.error failure, after)) :
    after.rowsAt p = fs.rowsAt p := by
  have hspared := fails_importItems ⟨some path, settings⟩ now file fs failure after h
  exact (hspared.kept p (not_beside_of_locate rfl (hspared.directories.locate hl))).rows

/-- An import succeeds where the items and the settings can be read, if opening the ledger succeeds
and there is a table of events after it. -/
theorem Keeps.exists_importItems_on (hk : Keeps fs path db) {settings : Option String}
    (hitems : ItemsIn fs file elements items)
    (hs : (loadSettings settings).on fs = (.ok handle, fs)) {version : SchemaVersion}
    (ho : (Store.openLedger now : Work Database SchemaVersion).on db = (.ok version, mid))
    (hmid : Holds mid rows) :
    ∃ report after,
      (importItems ⟨some path, settings⟩ file now).on fs = (.ok report, after) := by
  obtain ⟨saved, hsave, -⟩ := save_on hmid handle.settings items
  obtain ⟨after, hon, -⟩ := hk.withLedger_on ((Work.on_bind_of_ok ho).trans hsave)
  exact ⟨_, after, importItems_on_of_saved hitems.readItems_on hs hon⟩

/-- Items of which the one at a position is read with a text from the gap: with any other text
there, the document is still read, and the rows are the same but for those of this one item. -/
def Isolated (m : Item.Lenient) (g : Json.Gap) (k : Nat) (items : List Item) : Prop :=
  ∃ before i after, items = before ++ i :: after ∧ before.length = k ∧
    rowsFor items = rowsFor before ++ rowsFor [i] ++ rowsFor after ∧
    ∀ written text, Json.unquote? written = some text →
      Item.readAll? (g.fill written) = some (before ++ m.put (String.ofList text) i :: after) ∧
      rowsFor (before ++ m.put (String.ofList text) i :: after) =
        rowsFor before ++ rowsFor [m.put (String.ofList text) i] ++ rowsFor after

theorem rowsFor_append_cons (before : List Item) (i : Item) (after : List Item) :
    rowsFor (before ++ i :: after) = rowsFor before ++ rowsFor [i] ++ rowsFor after := by
  rw [List.append_cons, rowsFor_append, rowsFor_append]

theorem exists_isolated {m : Item.Lenient} {content : String} {k : Nat} {j : Json}
    {written : List Char} (hc : Json.read? content = some (.array elements))
    (hi : elements.mapM Item.ofJson? = some items) (hj : elements[k]? = some j)
    (hm : m.Given j written) :
    ∃ g : Json.Gap, content = g.fill written ∧ Isolated m g k items := by
  obtain ⟨g, before, i, after, hg, rfl, hk, hread⟩ := Item.Lenient.exists_gap hc hi hj hm
  exact ⟨g, hg, before, i, after, rfl, hk, rowsFor_append_cons before i after,
    fun other text ho => ⟨hread other text ho, rowsFor_append_cons before _ after⟩⟩

/-- An import that succeeds adds the rows of the valid items of its document, and counts these and
the others; one that fails leaves the rows as they are. It succeeds where everything can be read and
the ledger has a table of events. A text that an element gives for one of the types or the target
can be replaced in the document by any other, and every other item is kept, or skipped, as
before. -/
theorem imports_count_what_they_store :
    (∀ fs after path p db rows settings file now report, Keeps fs path db →
      fs.locate path = .ok p → HasRows db rows →
      (importItems ⟨some path, settings⟩ file now).on fs = (.ok report, after) →
      ∃ elements items skipped, ItemsIn fs file elements items ∧
        Imported fs after p file elements items report skipped) ∧
    (∀ fs after path p settings file now failure, Files.locate fs path = .ok p →
      (importItems ⟨some path, settings⟩ file now).on fs = (.error failure, after) →
      after.rowsAt p = fs.rowsAt p) ∧
    (∀ fs path db mid rows settings handle file elements items now version, Keeps fs path db →
      ItemsIn fs file elements items → (loadSettings settings).on fs = (.ok handle, fs) →
      (Store.openLedger now : Work Database SchemaVersion).on db = (.ok version, mid) →
      Holds mid rows → ∃ report after,
        (importItems ⟨some path, settings⟩ file now).on fs = (.ok report, after)) ∧
    ∀ content elements items k j written (m : Item.Lenient),
      Json.read? content = some (.array elements) → elements.mapM Item.ofJson? = some items →
      elements[k]? = some j → m.Given j written →
      ∃ g : Json.Gap, content = g.fill written ∧ Isolated m g k items := by
  refine ⟨?_, ?_, ?_, ?_⟩
  · intro fs after path p db rows settings file now report hk hl hrows h
    exact hk.imported hl hrows h
  · intro fs after path p settings file now failure hl h
    exact rowsAt_of_import_error hl h
  · intro fs path db mid rows settings handle file elements items now version hk hitems hs ho hmid
    exact hk.exists_importItems_on hitems hs ho hmid
  · intro content elements items k j written m hc hi hj hm
    exact exists_isolated hc hi hj hm

/-- An event of no type and a view, as a document. -/
def untypedAndView : Json := .array ([untypedEvent, viewOfPlacement].map Item.toJson)

theorem ofJson?_toJson_untypedAndView {i : Item} (h : i ∈ [untypedEvent, viewOfPlacement]) :
    Item.ofJson? i.toJson = some i := by
  have hview := Item.targetKept_iff.1 targetKept_viewOfPlacement
  simp only [List.mem_cons, List.not_mem_nil, or_false] at h
  obtain rfl | rfl := h <;> exact Item.ofJson?_toJson_eq_self hview (by decide)

theorem itemsIn_untypedAndView (database : Node) :
    ItemsIn (besideEvents database untypedAndView.line) "events.json"
      ([untypedEvent, viewOfPlacement].map Item.toJson) [untypedEvent, viewOfPlacement] where
  document := ⟨_, read_besideEvents _ _, (Item.composed_array _).read?_line.1⟩
  items := Json.mapM_map_eq_self fun _ => ofJson?_toJson_untypedAndView

theorem importItems_none_json (database : Node) (content : String) :
    (importItems ⟨some "ads.db", none⟩ "none.json" .epoch).on (besideEvents database content) =
      (.error (.file FileFault.missing.message), besideEvents database content) := by
  cbv

/-- A view is imported into a new ledger, the event of no type beside it is skipped, and where there
is no file to import nothing changes. With any other type for the event the items are read, and the
row of the view is the same. -/
theorem view_imported :
    let fs := besideEvents (.text "") untypedAndView.line
    ∃ report after failure failed,
      (importItems ⟨some "ads.db", none⟩ "events.json" .epoch).on fs = (.ok report, after) ∧
      after.rowsAt ["ads.db"] = rowsFor [viewOfPlacement] ∧
      (rowsFor [viewOfPlacement]).length = 1 ∧
      printedCounts? (report.render true false) = some (1, 1) ∧
      (importItems ⟨some "ads.db", none⟩ "none.json" .epoch).on fs = (.error failure, failed) ∧
      failed.rowsAt ["ads.db"] = [] ∧
      ∃ g : Json.Gap,
        untypedAndView.line = g.fill (Json.quote untypedEvent.confirmationType.name.toList) ∧
          Isolated .confirmationType g 0 [untypedEvent, viewOfPlacement] := by
  intro fs
  obtain ⟨himported, hfailed, hok, hisolated⟩ := imports_count_what_they_store
  have hk : Keeps fs "ads.db" Database.empty := keeps_besideEvents (.inr ⟨rfl, rfl⟩)
  have hl : fs.locate "ads.db" = .ok ["ads.db"] := by cbv
  have hitems := itemsIn_untypedAndView (.text "")
  obtain ⟨mid, ho, hready⟩ := openLedger_on_empty .epoch
  obtain ⟨report, after, himport⟩ := hok fs "ads.db" _ mid [] none _ "events.json" _ _ .epoch _ hk
    hitems rfl ho hready.events
  obtain ⟨elements, items, skipped, hin, hdone⟩ := himported fs after "ads.db" ["ads.db"] _ [] none
    "events.json" .epoch report hk hl (.inr ⟨rfl, rfl⟩) himport
  have hnone := importItems_none_json (.text "") untypedAndView.line
  have huntyped : untypedEvent.isValid = false := by decide
  have hview : viewOfPlacement.isValid = true := by decide
  have hrows : rowsFor [untypedEvent, viewOfPlacement] = rowsFor [viewOfPlacement] := by
    simp [rowsFor, huntyped, hview]
  have hone : (rowsFor [viewOfPlacement]).length = 1 := by simp [rowsFor, hview]
  obtain rfl : items = [untypedEvent, viewOfPlacement] :=
    Except.ok.inj (Prod.mk.inj (hin.readItems_on.symm.trans hitems.readItems_on)).1
  have hskipped : skipped = 1 := by
    have hall := hdone.all
    rw [← Json.length_of_mapM hin.items, hrows, hone] at hall
    exact Nat.add_left_cancel hall
  have hempty : fs.rowsAt ["ads.db"] = [] := hk.rowsAt_eq hl
  have hgiven : Item.Lenient.confirmationType.Given untypedEvent.toJson
      (Json.quote untypedEvent.confirmationType.name.toList) :=
    ⟨_, Item.fields?_toJson untypedEvent, rfl⟩
  refine ⟨report, after, _, fs, himport, ?_, hone, ?_, hnone, ?_, ?_⟩
  · rw [hdone.rows, hempty, hrows, List.nil_append]
  · rw [hdone.printed false, hrows, hone, hskipped]
  · exact (hfailed fs fs "ads.db" ["ads.db"] none "none.json" .epoch _ hl hnone).trans hempty
  · exact hisolated untypedAndView.line _ _ 0 _ _ .confirmationType
      (Item.composed_array _).read?_line.1 hitems.items rfl hgiven

end Cli
end AdLedger
