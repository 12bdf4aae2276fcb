import AdLedger.Json.Reader
import AdLedger.Proofs.Json.Scanning

/-!
# Documents through their texts

A document that is put together from values (`Composed`) is read from the line that is written for
it. By induction on the document: its text is scanned as tokens from which the reader, whatever is
open around it, makes the document again (`Spelled`); items and members are put together from their
parts with the commas between them. The tokens of members do not depend on the blanks between them
(`spacedMembers`), so a record is also read from the text with a line for each member
(`read?_lines`).
-/

namespace AdLedger.Json

open Token (scanFrom Ends)

/-- Documents as they are put together from values. -/
inductive Composed : Json → Prop where
  | null : Composed .null
  | bool (b : Bool) : Composed (.bool b)
  | nat (n : Nat) : Composed (.ofNat n)
  | string (s : String) : Composed (.ofString s)
  | array {items : List Json} (h : ∀ j ∈ items, Composed j) : Composed (.array items)
  | record {members : List (String × Json)} (h : ∀ m ∈ members, Composed m.2) :
      Composed (.record members)

/-- The reading after some more tokens. -/
def readFrom (r : Reading) (tokens : List Token) : Option Reading := tokens.foldlM Reading.step r

theorem readFrom_cons (r : Reading) (t : Token) (tokens : List Token) :
    readFrom r (t :: tokens) = (r.step t).bind (readFrom · tokens) := rfl

theorem readFrom_append (r : Reading) (tokens more : List Token) :
    readFrom r (tokens ++ more) = (readFrom r tokens).bind (readFrom · more) := List.foldlM_append

/-- A text is scanned as tokens, whatever has been before it. -/
def Scans (text : List Char) (tokens : List Token) : Prop :=
  ∀ done, ∃ s, scanFrom ⟨done, .between⟩ text = some s ∧ Ends s (tokens.reverse ++ done)

/-- The tokens of a value. -/
structure Spelled (j : Json) (tokens : List Token) : Prop where
  scans : Scans j.written tokens
  reads : ∀ stack, readFrom ⟨stack, .value⟩ tokens = some ⟨stack, .after j⟩
  first : ∃ t rest, tokens = t :: rest ∧ t ≠ .closeArray

/-- The tokens of items, one at least, with the commas between them. -/
structure SpelledItems (items : List Json) (tokens : List Token) : Prop where
  scans : Scans (writtenItems items) tokens
  reads : ∀ stack before, readFrom ⟨.array before :: stack, .value⟩ (tokens ++ [.closeArray]) =
    some ⟨stack, .after (.array (before.reverse ++ items))⟩
  first : ∃ t rest, tokens = t :: rest ∧ t ≠ .closeArray

/-! ## Scanning -/

/-- The tokens of a text are complete where it ends. -/
def Closes (text : List Char) (tokens : List Token) : Prop :=
  ∀ done, scanFrom ⟨done, .between⟩ text = some ⟨tokens.reverse ++ done, .between⟩

/-- A character that is a token by itself. -/
structure IsMark (c : Char) (t : Token) : Prop where
  not_inNumber : Token.inNumber c = false
  not_isLower : c.isLower = false
  begin_eq : ∀ done, Token.begin done c = some ⟨t :: done, .between⟩

theorem isMark_openArray : IsMark '[' .openArray := ⟨rfl, rfl, fun _ => rfl⟩

theorem isMark_closeArray : IsMark ']' .closeArray := ⟨rfl, rfl, fun _ => rfl⟩

theorem isMark_openObject : IsMark '\x7b' .openObject := ⟨rfl, rfl, fun _ => rfl⟩

theorem isMark_closeObject : IsMark '\x7d' .closeObject := ⟨rfl, rfl, fun _ => rfl⟩

theorem isMark_comma : IsMark ',' .comma := ⟨rfl, rfl, fun _ => rfl⟩

theorem isMark_colon : IsMark ':' .colon := ⟨rfl, rfl, fun _ => rfl⟩

section

variable {text more : List Char} {tokens others : List Token} {c : Char} {t : Token}

theorem IsMark.closes (h : IsMark c t) : Closes [c] [t] := fun done => by
  rw [Token.scanFrom_cons, show Token.step ⟨done, .between⟩ c = _ from h.begin_eq done]
  rfl

theorem closes_text (text : List Char) : Closes ('"' :: quote text ++ ['"']) [.text (quote text)] :=
  fun done => (Token.taken_of_unquote? (unquote?_quote text)).scanFrom_text done []

theorem Closes.scans (h : Closes text tokens) : Scans text tokens :=
  fun done => ⟨_, h done, Token.ends_between _⟩

/-- A mark ends what is before it. -/
theorem Scans.mark (h : Scans text tokens) (hm : IsMark c t) :
    Closes (text ++ [c]) (tokens ++ [t]) := by
  intro done
  obtain ⟨s, hs, he⟩ := h done
  rw [Token.scanFrom_append, hs, Option.bind_some, he.scanFrom_cons hm.not_inNumber hm.not_isLower,
    hm.begin_eq, List.reverse_append]
  rfl

theorem Closes.append_scans (h : Closes text tokens) (h' : Scans more others) :
    Scans (text ++ more) (tokens ++ others) := by
  intro done
  obtain ⟨s, hs, he⟩ := h' (tokens.reverse ++ done)
  refine ⟨s, ?_, ?_⟩
  · rw [Token.scanFrom_append, h, Option.bind_some, hs]
  · rwa [List.reverse_append, List.append_assoc]

theorem Closes.append (h : Closes text tokens) (h' : Closes more others) :
    Closes (text ++ more) (tokens ++ others) := by
  intro done
  rw [Token.scanFrom_append, h, Option.bind_some, h', List.reverse_append, List.append_assoc]

/-- A blank ends what is before it, and is no token. -/
theorem Scans.blank (h : Scans text tokens) : Closes (text ++ ['\n']) tokens := by
  intro done
  obtain ⟨s, hs, he⟩ := h done
  rw [Token.scanFrom_append, hs, Option.bind_some, he.scanFrom_cons rfl rfl]
  rfl

end

/-! ## Items -/

/-- Where an array may end, a value is read as anywhere else. -/
theorem readFrom_valueOrEnd {tokens : List Token}
    (h : ∃ t rest, tokens = t :: rest ∧ t ≠ .closeArray) (stack : List Open) :
    readFrom ⟨stack, .valueOrEnd⟩ tokens = readFrom ⟨stack, .value⟩ tokens := by
  obtain ⟨t, rest, rfl, ht⟩ := h
  have hstep : Reading.step ⟨stack, .valueOrEnd⟩ t = Reading.step ⟨stack, .value⟩ t := by
    cases t <;> first | rfl | exact absurd rfl ht
  rw [readFrom_cons, readFrom_cons, hstep]

theorem exists_spelledItems {items : List Json} (hne : items ≠ [])
    (h : ∀ j ∈ items, ∃ tokens, Spelled j tokens) : ∃ tokens, SpelledItems items tokens := by
  induction items with
  | nil => exact absurd rfl hne
  | cons j rest ih =>
    obtain ⟨⟨tokens, hj⟩, hrest⟩ := List.forall_mem_cons.1 h
    cases rest with
    | nil =>
      refine ⟨tokens, hj.scans, fun stack before => ?_, hj.first⟩
      rw [readFrom_append, hj.reads, Option.bind_some, ← List.reverse_cons]
      rfl
    | cons k rest =>
      obtain ⟨others, ho⟩ := ih (by simp) hrest
      refine ⟨tokens ++ [.comma] ++ others, ?_, fun stack before => ?_, ?_⟩
      · have hscans := (hj.scans.mark isMark_comma).append_scans ho.scans
        rwa [List.append_assoc] at hscans
      · rw [List.append_assoc, List.append_assoc, readFrom_append, hj.reads, Option.bind_some]
        have hitems := ho.reads stack (j :: before)
        rw [List.reverse_cons, List.append_assoc] at hitems
        exact hitems
      · obtain ⟨t, more, rfl, ht⟩ := hj.first
        exact ⟨t, _, rfl, ht⟩

theorem exists_spelled_array {items : List Json} (h : ∀ j ∈ items, ∃ tokens, Spelled j tokens) :
    ∃ tokens, Spelled (.array items) tokens := by
  by_cases hne : items = []
  · subst hne
    refine ⟨[.openArray, .closeArray], ?_, fun _ => rfl, _, _, rfl, nofun⟩
    exact (isMark_openArray.closes.append isMark_closeArray.closes).scans
  · obtain ⟨tokens, hi⟩ := exists_spelledItems hne h
    refine ⟨.openArray :: (tokens ++ [.closeArray]), ?_, fun stack => ?_, _, _, rfl, nofun⟩
    · exact (isMark_openArray.closes.append (hi.scans.mark isMark_closeArray)).scans
    · obtain ⟨t, rest, rfl, ht⟩ := hi.first
      have hopen : readFrom ⟨.array [] :: stack, .valueOrEnd⟩ (t :: rest ++ [.closeArray]) =
          some ⟨stack, .after (.array items)⟩ :=
        (readFrom_valueOrEnd ⟨t, _, rfl, ht⟩ _).trans (hi.reads stack [])
      exact hopen

/-! ## Members -/

/-- Members with their names as they are written. -/
def quoted (members : List (String × Json)) : List (List Char × Json) :=
  members.map fun (name, value) => (quote name.toList, value)

/-- Members with the commas between them, something before each name, and something between each
colon and its value. -/
def spacedMembers (front gap : List Char) : List (List Char × Json) → List Char
  | [] => []
  | [(name, value)] => front ++ ('"' :: name ++ ['"', ':']) ++ (gap ++ value.written)
  | (name, value) :: rest =>
    front ++ ('"' :: name ++ ['"', ':']) ++ (gap ++ value.written) ++ [','] ++
      spacedMembers front gap rest

theorem spacedMembers_nil (members : List (List Char × Json)) :
    spacedMembers [] [] members = writtenMembers members := by
  induction members with
  | nil => rfl
  | cons m rest ih =>
    obtain ⟨name, value⟩ := m
    cases rest with
    | nil => simp [spacedMembers, writtenMembers]
    | cons n rest =>
      rw [spacedMembers, ih] <;> simp [writtenMembers]

/-- The tokens of members, one at least, with the commas between them. -/
structure SpelledMembers (members : List (List Char × Json)) (tokens : List Token) : Prop where
  scans : ∀ front gap, Closes front [] → Closes gap [] →
    Scans (spacedMembers front gap members) tokens
  reads : ∀ stack before, readFrom ⟨stack, .name before⟩ (tokens ++ [.closeObject]) =
    some ⟨stack, .after (.object (before.reverse ++ members))⟩
  first : ∃ name rest, tokens = .text name :: rest

theorem Spelled.scans_member {j : Json} {tokens : List Token} (h : Spelled j tokens)
    (name : List Char) {front gap : List Char} (hfront : Closes front []) (hgap : Closes gap []) :
    Scans (front ++ ('"' :: quote name ++ ['"', ':']) ++ (gap ++ j.written))
      (.text (quote name) :: .colon :: tokens) := by
  have hname := hfront.append ((closes_text name).append isMark_colon.closes)
  have hscans := hname.append_scans (hgap.append_scans h.scans)
  simpa using hscans

/-- A member is read where a name is expected. -/
theorem Spelled.reads_member {j : Json} {tokens : List Token} (h : Spelled j tokens)
    (name : List Char) (stack : List Open) (before : List (List Char × Json)) (more : List Token) :
    readFrom ⟨stack, .name before⟩ (.text name :: .colon :: tokens ++ more) =
      readFrom ⟨.object before name :: stack, .after j⟩ more := by
  have hvalue := h.reads (.object before name :: stack)
  have hall : readFrom ⟨.object before name :: stack, .value⟩ (tokens ++ more) =
      readFrom ⟨.object before name :: stack, .after j⟩ more := by
    rw [readFrom_append, hvalue, Option.bind_some]
  exact hall

theorem exists_spelledMembers {members : List (String × Json)} (hne : members ≠ [])
    (h : ∀ m ∈ members, ∃ tokens, Spelled m.2 tokens) :
    ∃ tokens, SpelledMembers (quoted members) tokens := by
  induction members with
  | nil => exact absurd rfl hne
  | cons m rest ih =>
    obtain ⟨name, j⟩ := m
    obtain ⟨⟨tokens, hj⟩, hrest⟩ := List.forall_mem_cons.1 h
    have hreads := hj.reads_member (quote name.toList)
    cases rest with
    | nil =>
      refine ⟨_, fun _ _ => hj.scans_member name.toList, fun stack before => ?_, _, _, rfl⟩
      rw [hreads, show quoted [(name, j)] = [(quote name.toList, j)] from rfl, ← List.reverse_cons]
      rfl
    | cons n rest =>
      obtain ⟨others, ho⟩ := ih (by simp) hrest
      refine ⟨.text (quote name.toList) :: .colon :: tokens ++ ([.comma] ++ others),
        fun front gap hfront hgap => ?_, fun stack before => ?_, _, _, rfl⟩
      · have hscans := hj.scans_member name.toList hfront hgap
        rw [← List.append_assoc]
        exact (hscans.mark isMark_comma).append_scans (ho.scans front gap hfront hgap)
      · rw [List.append_assoc, hreads]
        have hmembers := ho.reads stack ((quote name.toList, j) :: before)
        rw [List.reverse_cons, List.append_assoc] at hmembers
        exact hmembers

theorem toList_lines (members : List (String × Json)) :
    (lines members).toList =
      '\x7b' :: spacedMembers ['\n', ' ', ' '] [' '] (quoted members) ++ ['\n', '\x7d'] := by
  unfold lines
  rw [String.toList_ofList]
  refine congrArg ('\x7b' :: · ++ ['\n', '\x7d']) ?_
  induction members with
  | nil => rfl
  | cons m rest ih =>
    cases rest with
    | nil => simp [quoted, spacedMembers]
    | cons n rest =>
      rw [List.map_cons] at ih ⊢
      rw [List.map_cons, List.intercalate_cons_cons, ih]
      simp [quoted, spacedMembers]

/-- A record has the same tokens on one line and with a line for each member. -/
theorem exists_spelled_record {members : List (String × Json)}
    (h : ∀ m ∈ members, ∃ tokens, Spelled m.2 tokens) :
    ∃ tokens, Spelled (.record members) tokens ∧ Scans (lines members).toList tokens := by
  rw [toList_lines]
  by_cases hne : members = []
  · subst hne
    refine ⟨[.openObject, .closeObject], ⟨?_, fun _ => rfl, _, _, rfl, nofun⟩, ?_⟩
    · exact (isMark_openObject.closes.append isMark_closeObject.closes).scans
    · exact (isMark_openObject.closes.scans.blank.append isMark_closeObject.closes).scans
  · obtain ⟨tokens, hm⟩ := exists_spelledMembers hne h
    refine ⟨.openObject :: (tokens ++ [.closeObject]), ⟨?_, fun stack => ?_, _, _, rfl, nofun⟩, ?_⟩
    · have hscans := hm.scans [] [] (fun _ => rfl) fun _ => rfl
      rw [spacedMembers_nil] at hscans
      exact (isMark_openObject.closes.append (hscans.mark isMark_closeObject)).scans
    · obtain ⟨name, rest, rfl⟩ := hm.first
      exact hm.reads stack []
    · have hscans := hm.scans ['\n', ' ', ' '] [' '] (fun _ => rfl) fun _ => rfl
      have hlast := hscans.blank.append isMark_closeObject.closes
      rw [List.append_assoc] at hlast
      exact (isMark_openObject.closes.append hlast).scans

/-! ## Documents -/

theorem Composed.exists_spelled {j : Json} (h : Composed j) : ∃ tokens, Spelled j tokens := by
  induction h with
  | null =>
    have hlower : ∀ c ∈ "null".toList, c.isLower = true := by simp
    have hword : Token.word? "null".toList = some .null := by simp [Token.word?]
    exact ⟨[.atom .null], Token.scanFrom_word (by decide) hlower hword, fun _ => rfl, _, _, rfl,
      nofun⟩
  | bool b =>
    refine ⟨[.atom (.bool b)], ?_, fun _ => rfl, _, _, rfl, nofun⟩
    cases b with
    | true =>
      have hlower : ∀ c ∈ "true".toList, c.isLower = true := by simp
      have hword : Token.word? "true".toList = some (.bool true) := by simp [Token.word?]
      exact Token.scanFrom_word (by decide) hlower hword
    | false =>
      have hlower : ∀ c ∈ "false".toList, c.isLower = true := by simp
      have hword : Token.word? "false".toList = some (.bool false) := by simp [Token.word?]
      exact Token.scanFrom_word (by decide) hlower hword
  | nat n => exact ⟨[.atom (.ofNat n)], Token.scanFrom_nat n, fun _ => rfl, _, _, rfl, nofun⟩
  | string s =>
    exact ⟨[.text (quote s.toList)], (closes_text s.toList).scans, fun _ => rfl, _, _, rfl, nofun⟩
  | array _ ih => exact exists_spelled_array ih
  | record _ ih =>
    obtain ⟨tokens, hj, -⟩ := exists_spelled_record ih
    exact ⟨tokens, hj⟩

theorem read?_eq {text : List Char} {tokens : List Token} {s : Token.State}
    (hs : scanFrom ⟨[], .between⟩ text = some s) (he : Ends s tokens.reverse) :
    read? (String.ofList text) = ofTokens? tokens := by
  have hscan : Token.scan text = some tokens := by
    rw [Token.scan, show text.foldlM Token.step ⟨[], .between⟩ = some s from hs]
    simp [he.finish_eq]
  rw [read?, String.toList_ofList, hscan]
  rfl

/-- A document is read from any text that has its tokens. -/
theorem Spelled.read?_eq {j : Json} {tokens : List Token} (h : Spelled j tokens) {text : List Char}
    (hs : Scans text tokens) : read? (String.ofList text) = some j := by
  obtain ⟨s, hs, he⟩ := hs []
  rw [List.append_nil] at he
  have hread : tokens.foldlM Reading.step ⟨[], .value⟩ = some ⟨[], .after j⟩ := h.reads []
  rw [Json.read?_eq hs he, ofTokens?, hread]
  rfl

/-- A document is read from the line that is written for it, also where the line is ended. -/
theorem Composed.read?_line {j : Json} (h : Composed j) :
    read? j.line = some j ∧ read? (j.line ++ "\n") = some j := by
  obtain ⟨tokens, hj⟩ := h.exists_spelled
  refine ⟨hj.read?_eq hj.scans, ?_⟩
  have htext : j.line ++ "\n" = String.ofList (j.written ++ ['\n']) := by
    rw [String.ofList_append]
    rfl
  rw [htext, hj.read?_eq hj.scans.blank.scans]

/-- A record is read from the text with a line for each member. -/
theorem read?_lines {members : List (String × Json)} (h : ∀ m ∈ members, Composed m.2) :
    read? (lines members) = some (record members) := by
  obtain ⟨tokens, hj, hlines⟩ := exists_spelled_record fun m hm => (h m hm).exists_spelled
  rw [← String.ofList_toList (s := lines members), hj.read?_eq hlines]

/-! ## Members of a record -/

theorem mapM_eq_some_iff {α β : Type} {f : α → Option β} {xs : List α} {zs : List β} :
    xs.mapM f = some zs ↔ xs.map f = zs.map some := by
  induction xs generalizing zs with
  | nil => cases zs <;> simp
  | cons x xs ih =>
    rw [List.mapM_cons, List.map_cons]
    constructor
    · intro h
      obtain ⟨z, hz, h⟩ := Option.bind_eq_some_iff.1 h
      obtain ⟨rest, hrest, h⟩ := Option.bind_eq_some_iff.1 h
      cases h
      rw [hz, ih.1 hrest, List.map_cons]
    · intro h
      obtain ⟨z, rest, rfl, hz, hrest⟩ := List.map_eq_cons_iff.1 h.symm
      exact Option.bind_eq_some_iff.2
        ⟨z, hz.symm, Option.bind_eq_some_iff.2 ⟨rest, ih.2 hrest.symm, rfl⟩⟩

/-- What is found for each element is found for all, whatever the elements are made of. -/
theorem mapM_map_eq_some {α β γ : Type} {f : β → Option γ} {e : α → β} {g : α → γ} {xs : List α}
    (h : ∀ x ∈ xs, f (e x) = some (g x)) : (xs.map e).mapM f = some (xs.map g) := by
  rw [mapM_eq_some_iff, List.map_map, List.map_map]
  exact List.map_congr_left h

theorem mapM_map_eq_self {α β : Type} {f : β → Option α} {e : α → β} {xs : List α}
    (h : ∀ x ∈ xs, f (e x) = some x) : (xs.map e).mapM f = some xs :=
  (mapM_map_eq_some h).trans (congrArg some (List.map_id' xs))

/-- A member is the only one of its name. -/
theorem filter_name {members : List (String × Json)} (h : (members.map Prod.fst).Nodup)
    {m : String × Json} (hm : m ∈ members) : members.filter (·.1 = m.1) = [m] := by
  induction members with
  | nil => cases hm
  | cons n members ih =>
    obtain ⟨hn, h⟩ := List.nodup_cons.1 h
    obtain rfl | hm := List.mem_cons.1 hm
    · have hrest : members.filter (·.1 = m.1) = [] := by
        refine List.filter_eq_nil_iff.2 fun k hk he => hn ?_
        rw [← of_decide_eq_true he]
        exact List.mem_map_of_mem hk
      rw [List.filter_cons_of_pos (by simp), hrest]
    · have hne : ¬ n.1 = m.1 := fun he => hn (he ▸ List.mem_map_of_mem hm)
      rw [List.filter_cons_of_neg (by simpa using hne), ih h hm]

/-- Members of a record are found under their names, if no two members have the same one. -/
theorem fields?_record {members asked : List (String × Json)}
    (h : (members.map Prod.fst).Nodup) (ha : ∀ m ∈ asked, m ∈ members) :
    (record members).fields? (asked.map Prod.fst) = some (asked.map fun m => some m.2) := by
  rw [record, fields?]
  refine (congrArg (· >>= _) (mapM_map_eq_self fun m _ => ?_)).trans
    (mapM_map_eq_some fun m hm => ?_)
  · simp [unquote?_quote]
  · simp only [filter_name h (ha m hm)]

end AdLedger.Json
