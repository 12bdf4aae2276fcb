import AdLedger.Proofs.Files
import AdLedger.Proofs.Json.Reading
import AdLedger.Proofs.Settings.Handle

/-!
# Settings that are written

Usable settings are read from the document that is written for them (`read_document`), so that a
file into which they have been written is loaded as those settings (`Written.load_eq`). Where they
have been written once, to write them again changes nothing (`Written.again`).
-/

namespace AdLedger.Settings

variable {fs made after : Files} {path : String} {p : Path} {s : Settings}

/-! ## Documents -/

/-- Usable settings are found among the members of any record that has theirs. -/
theorem ofJson?_record (h : s.Usable) {members : List (String × Json)}
    (hd : (members.map Prod.fst).Nodup) (hm : ∀ m ∈ s.members, m ∈ members) :
    ofJson? (.record members) = some s := by
  obtain ⟨-, hbatch, hretention⟩ := h
  rw [maxBatchSize_eq] at hbatch
  unfold maxRetentionDays at hretention
  refine ofJson?_eq_some_iff.2 ⟨_, _, Json.fields?_record hd hm, .given ?_ ?_, .given ?_ ?_⟩
  · exact Text.natural?_toDigits s.retentionDays
  · exact lt_of_le_of_lt hretention (by decide)
  · exact Text.natural?_toDigits s.batchSize
  · exact lt_of_le_of_lt hbatch (by decide)

theorem composed_of_mem_members {m : String × Json} (h : m ∈ s.members) : m.2.Composed := by
  simp only [members, List.mem_cons, List.not_mem_nil, or_false] at h
  obtain rfl | rfl := h <;> exact .nat _

theorem nodup_members : (s.members.map Prod.fst).Nodup := by simp [members]

/-- Usable settings are read from the document that is written for them. -/
theorem read_document (h : s.Usable) : read s.document = .ok s :=
  read_eq_ok_iff.2 ⟨_, Json.read?_lines fun _ => composed_of_mem_members,
    ofJson?_record h nodup_members fun _ hm => hm⟩

/-! ## Files -/

/-- A path leads to one file, which says one thing. -/
theorem InFile.unique {t : Settings} (h : InFile fs path s)
    (h' : InFile fs path t) : s = t :=
  Except.ok.inj ((load_eq_ok_iff.2 h).symm.trans (load_eq_ok_iff.2 h'))

/-- A text can be kept in the file that a path leads to, in directories that are made as needed. -/
def Writable (fs : Files) (path : String) : Prop :=
  ∃ made, makeParent fs path = .ok made ∧
    ∀ content, ∃ after, made.write path (.text content) = .ok after

/-- The document of settings has been kept in the file that a path leads to, in directories that
have been made as needed. -/
def Written (s : Settings) (fs : Files) (path : String) (after : Files) : Prop :=
  ∃ made, makeParent fs path = .ok made ∧ made.write path (.text s.document) = .ok after

theorem exists_written_iff : (∃ after, s.Written fs path after) ↔ Writable fs path := by
  constructor
  · rintro ⟨after, made, hmade, hwrite⟩
    obtain ⟨p, hl, hd, hp, -⟩ := Files.write_eq_ok.1 hwrite
    exact ⟨made, hmade, fun _ => ⟨_, Files.write_eq_ok.2 ⟨p, hl, hd, hp, rfl⟩⟩⟩
  · rintro ⟨made, hmade, hwrite⟩
    obtain ⟨after, hafter⟩ := hwrite s.document
    exact ⟨after, made, hmade, hafter⟩

theorem save_eq_ok_iff :
    s.save fs path = (.ok (), after) ↔ s.Usable ∧ s.Written fs path after := by
  rw [← validate_eq_ok_iff]
  unfold save Written
  cases s.validate with
  | error failure => simp
  | ok =>
    cases makeParent fs path with
    | error fault => simp
    | ok made => cases hw : made.write path (.text s.document) <;> simp [hw]

/-- Unusable settings are never written. -/
theorem save_of_not_usable (h : ¬ s.Usable) : ∃ failure, s.save fs path = (.error failure, fs) := by
  rw [← validate_eq_ok_iff] at h
  unfold save
  cases hv : s.validate with
  | error failure => exact ⟨failure, rfl⟩
  | ok => exact absurd hv h

theorem load_of_read {content : String} (h : fs.read path = .ok content) :
    load fs path = read content := by
  rw [load, contains_of_read h, h]
  rfl

namespace Written

theorem load_eq (h : s.Written fs path after) (hs : s.Usable) : load after path = .ok s := by
  obtain ⟨made, -, hwrite⟩ := h
  obtain ⟨p, hl, hd, -, rfl⟩ := Files.write_eq_ok.1 hwrite
  have hread : (made.put p (.text s.document)).read path = .ok s.document :=
    Files.read_eq_ok.2 ⟨p, (Files.keepsDirectories_put hd).locate hl,
      Files.node?_put_self _ (Files.ne_nil_of_isDirectory_eq_false hd)⟩
  rw [load_of_read hread, read_document hs]

/-- To write settings once more changes nothing. -/
theorem again (h : s.Written fs path after) : s.Written after path after := by
  obtain ⟨made, hmade, hwrite⟩ := h
  obtain ⟨p, hl, hd, hp, rfl⟩ := Files.write_eq_ok.1 hwrite
  have hkeeps : made.KeepsDirectories (made.put p (.text s.document)) :=
    Files.keepsDirectories_put hd
  have hself : (made.put p (.text s.document)).node? p = some (.text s.document) :=
    Files.node?_put_self _ (Files.ne_nil_of_isDirectory_eq_false hd)
  refine ⟨_, ?_, Files.write_eq_ok.2 ⟨p, hkeeps.locate hl,
    Files.isDirectory_eq_false hself (by simp), hkeeps.directory _ hp,
    (Files.put_put_self made p _).symm⟩⟩
  unfold makeParent at hmade ⊢
  split at hmade
  · exact Files.makeDirectories_again hmade hkeeps
  · rfl

end Written
end AdLedger.Settings
