import AdLedger.Item.Document
import AdLedger.Proofs.Json.Reading
import AdLedger.Proofs.Time.Reading

/-!
# Items through their documents

What is read from the document of an item, where the text of its target is read as that target: the
item itself, but for a time in a leap second that ends no minute (`Item.written`). Items without
such times are read from the array of their documents.
-/

namespace AdLedger.Item

theorem composed_target (target : Option Url) :
    (Json.ofOption (target.map fun url => .ofString url.text)).Composed := by
  cases target with
  | none => exact .null
  | some url => exact .string url.text

theorem composed_toJson (i : Item) : i.toJson.Composed := by
  have hvalues : ∀ value ∈ i.memberValues, value.Composed := by
    simp only [memberValues, List.forall_mem_cons]
    exact ⟨.string _, .string _, .string _, .string _, .string _, .string _, .string _, .string _,
      .string _, .string _, .string _, composed_target i.targetUrl, nofun⟩
  exact .record fun m hm => hvalues m.2 (List.of_mem_zip hm).2

theorem nodup_memberNames : memberNames.Nodup := by decide

theorem fields?_toJson (i : Item) :
    i.toJson.fields? memberNames = some (i.memberValues.map some) := by
  have hlen : memberNames.length = i.memberValues.length := rfl
  have hnames : (memberNames.zip i.memberValues).map Prod.fst = memberNames :=
    List.map_fst_zip (Nat.le_of_eq hlen)
  have hvalues : (memberNames.zip i.memberValues).map Prod.snd = i.memberValues :=
    List.map_snd_zip (Nat.le_of_eq hlen.symm)
  have hnodup : ((memberNames.zip i.memberValues).map Prod.fst).Nodup :=
    hnames ▸ nodup_memberNames
  have hfields := Json.fields?_record hnodup fun _ => id
  rw [hnames] at hfields
  rw [toJson, hfields, ← hvalues, List.map_map, hvalues]
  rfl

theorem string?_ofString (s : String) : (Json.ofString s).string? = some s := by
  simp [Json.string?, Json.ofString, Json.unquote?_quote]

theorem target_ofOption {url? : Option Url} (h : ∀ url ∈ url?, Url.read? url.text = some url) :
    target (some (.ofOption (url?.map fun url => .ofString url.text))) = some url? := by
  cases url? with
  | none => rfl
  | some url =>
    show (Json.ofString url.text).string?.map Url.read? = some (some url)
    rw [string?_ofString, Option.map_some, h url rfl]

theorem required_ofString (s : String) : required (some (.ofString s)) = some s :=
  string?_ofString s

theorem optional_ofString (s : String) : optional (some (.ofString s)) = some s :=
  string?_ofString s

theorem bind_of_eq {α β : Type} {m : Option α} {a : α} (h : m = some a) (f : α → Option β) :
    (m >>= f) = f a := by
  rw [h]
  rfl

/-- An item with the time that is read from the text of its own. -/
def written (i : Item) : Item := { i with createdAt := i.createdAt.writtenAs }

theorem written_eq_self_iff {i : Item} : i.written = i ↔ i.createdAt.LeapEndsMinute := by
  rw [← Time.Instant.writtenAs_eq_self_iff]
  constructor
  · intro h
    exact congrArg createdAt h
  · intro h
    rw [written, h]

theorem ofJson?_toJson {i : Item} (h : ∀ url ∈ i.targetUrl, Url.read? url.text = some url) :
    ofJson? i.toJson = some i.written := by
  rw [ofJson?, bind_of_eq (fields?_toJson i)]
  dsimp only [memberValues, List.map]
  rw [bind_of_eq (required_ofString _), bind_of_eq (Time.Instant.read?_text _)]
  iterate 7 rw [bind_of_eq (required_ofString _)]
  iterate 3 rw [bind_of_eq (optional_ofString _)]
  rw [bind_of_eq (target_ofOption h), AdType.ofName_name, ConfirmationType.ofName_name]
  rfl

/-- An item is read from its document, where a leap second that it is in ends its minute. -/
theorem ofJson?_toJson_eq_self {i : Item} (h : ∀ url ∈ i.targetUrl, Url.read? url.text = some url)
    (ht : i.createdAt.LeapEndsMinute) : ofJson? i.toJson = some i := by
  rw [ofJson?_toJson h, written_eq_self_iff.2 ht]

/-- What is read from the text of an item. -/
theorem read?_text {i : Item} (h : ∀ url ∈ i.targetUrl, Url.read? url.text = some url) :
    read? i.text = some i.written := by
  rw [read?, text, (composed_toJson i).read?_line.1, Option.bind_some, ofJson?_toJson h]

theorem composed_array (items : List Item) : (Json.array (items.map toJson)).Composed := by
  refine .array fun j hj => ?_
  obtain ⟨i, -, rfl⟩ := List.mem_map.1 hj
  exact composed_toJson i

/-- Items are read from a text that is read as the array of their documents. -/
theorem readAll?_of_read? {items : List Item} {content : String}
    (h : ∀ i ∈ items, ∀ url ∈ i.targetUrl, Url.read? url.text = some url)
    (ht : ∀ i ∈ items, i.createdAt.LeapEndsMinute)
    (hc : Json.read? content = some (.array (items.map toJson))) :
    readAll? content = some items := by
  have hitems : (items.map toJson).mapM ofJson? = some items :=
    Json.mapM_map_eq_self fun i hi => ofJson?_toJson_eq_self (h i hi) (ht i hi)
  rw [readAll?, hc]
  exact hitems

end AdLedger.Item
