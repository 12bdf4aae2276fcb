import AdLedger.Names.Vocabulary
import AdLedger.Proofs.Names.EditDistance
import AdLedger.Proofs.Text.Folding
import Mathlib.Data.List.Induction

/-!
# Words and what they stand for

How a word is understood in a vocabulary, in whatever order the names and the synonyms are gone
through (`Reordered`). It is taken if the form in which words are compared is a name or a synonym;
else it is given back with a value that has a nearest word, if any word is within reach
(`Resolves`). That rests on what holds of the vocabularies as lists of words (`Sound`) and on what
the search has found after each word (`Found`).
-/

namespace AdLedger.Names

open Text (Lowered AgreeInAscii underscored)

/-- How many edits lead from one word to another. -/
def distance (word other : String) : Nat := editDistance word.toList other.toList

/-- A form in which a word may be compared: without blanks around it, in lower case, and with `_`
for `-`. -/
def Folded (word n : String) : Prop :=
  ∃ t, Lowered (Text.trimBlank word.toList) t ∧ n = String.ofList (t.map underscored)

/-- Two words are the same but for blanks around them, the case of ASCII letters, and hyphens in the
place of underscores. -/
def Variant (word other : String) : Prop :=
  ∃ before s after before' s' after',
    (∀ blanks ∈ [before, after, before', after'], Text.allBlank blanks = true) ∧
    word.toList = before ++ s ++ after ∧ other.toList = before' ++ s' ++ after' ∧
    s.map Text.plain = s'.map Text.plain

/-! ## Forms of a word -/

theorem folded_eq (word : String) :
    folded word = String.ofList ((Text.lower (Text.trimBlank word.toList)).map underscored) := rfl

theorem folded_folded (word : String) : Folded word (folded word) :=
  ⟨_, Text.lowered_lower _, rfl⟩

/-- What is taken away and evened out makes no difference. -/
theorem Variant.folded_eq {word other : String} (h : Variant word other) :
    folded other = folded word := by
  obtain ⟨before, s, after, before', s', after', hblank, hword, hother, hplain⟩ := h
  simp only [List.forall_mem_cons] at hblank
  obtain ⟨hb, ha, hb', ha', -⟩ := hblank
  have heven : ∀ s : List Char, (Text.lower (Text.trimBlank s)).map underscored =
      (Text.lower (Text.trimBlank (s.map Text.plain))).map underscored := by
    intro s
    rw [Text.trimBlank_map Text.isBlank_plain, Text.lower_underscored]
  rw [Names.folded_eq, Names.folded_eq, hword, hother, Text.trimBlank_append hb ha,
    Text.trimBlank_append hb' ha', heven s, heven s', hplain]

/-- Characters outside ASCII are as far from an ASCII text as any other such characters. -/
theorem editDistance_agree {a b e : List Char} (h : List.Forall₂ AgreeInAscii a b)
    (he : ∀ c ∈ e, c.toNat < 0x80) : editDistance a e = editDistance b e := by
  induction h generalizing e with
  | nil => rfl
  | @cons c d a b hcd hab ih =>
    induction e with
    | nil => simpa using hab.length_eq
    | cons y e ihe =>
      obtain ⟨hy, he⟩ := List.forall_mem_cons.1 he
      have heq : c = y ↔ d = y := by
        rcases hcd with rfl | ⟨hc, hd⟩
        · exact Iff.rfl
        · constructor <;> rintro rfl <;> omega
      rw [editDistance_cons_cons, editDistance_cons_cons, ih he,
        ih (List.forall_mem_cons.2 ⟨hy, he⟩), ihe he]
      simp only [heq]

/-- All forms of a word are as far from an ASCII word. -/
theorem Folded.distance_eq {word n w : String} (h : Folded word n)
    (hw : ∀ c ∈ w.toList, c.toNat < 0x80) : distance n w = distance (folded word) w := by
  obtain ⟨t, ht, rfl⟩ := h
  have hagree : List.Forall₂ AgreeInAscii (t.map underscored)
      ((Text.lower (Text.trimBlank word.toList)).map underscored) := by
    rw [List.forall₂_map_left_iff, List.forall₂_map_right_iff]
    refine ht.agree.imp fun c d hcd => ?_
    rcases hcd with rfl | ⟨hc, hd⟩
    · exact .inl rfl
    · have hhyphen : ∀ c : Char, 0x80 ≤ c.toNat → underscored c = c := by
        intro c hc
        refine if_neg ?_
        rintro rfl
        exact absurd hc (by decide)
      rw [hhyphen c hc, hhyphen d hd]
      exact .inr ⟨hc, hd⟩
  rw [distance, distance, folded_eq, String.toList_ofList, String.toList_ofList]
  exact editDistance_agree hagree hw

theorem distance_eq_zero_iff {word other : String} : distance word other = 0 ↔ word = other :=
  editDistance_eq_zero_iff.trans String.toList_inj

/-! ## Searching for the nearest word -/

namespace Vocabulary

variable {α : Type} {v w : Vocabulary α} {isDefined : α → Bool} {word n : String}

/-- What a search has found after some words: none of them is within reach, or the value of one that
is, and none of them is nearer. -/
def Found (word : String) (seen : List (String × α)) : Option (Nat × α) → Prop
  | none => ∀ e ∈ seen, reach < distance word e.1
  | some (least, a) => least ≤ reach ∧ (∃ e ∈ seen, e.2 = a ∧ distance word e.1 = least) ∧
      ∀ e ∈ seen, least ≤ distance word e.1

/-- One more word replaces what has been found only where it is nearer. -/
theorem Found.snoc {seen : List (String × α)} {best : Option (Nat × α)} (h : Found word seen best)
    (e : String × α) : Found word (seen ++ [e]) (nearer word best e) := by
  cases best with
  | none =>
    have hfar : ∀ d ∈ seen, reach < distance word d.1 := h
    by_cases hreach : distance word e.1 ≤ reach
    · rw [show nearer word none e = some (distance word e.1, e.2) from if_pos hreach]
      refine ⟨hreach, ⟨e, by simp, rfl, rfl⟩, ?_⟩
      grind
    · rw [show nearer word none e = none from if_neg hreach]
      show ∀ d ∈ seen ++ [e], reach < distance word d.1
      grind
  | some best =>
    obtain ⟨least, a⟩ := best
    obtain ⟨hreach, ⟨f, hf, hfa, hfl⟩, hleast⟩ := h
    by_cases hlt : distance word e.1 < least
    · rw [show nearer word (some (least, a)) e = some (distance word e.1, e.2) from if_pos hlt]
      refine ⟨hlt.le.trans hreach, ⟨e, by simp, rfl, rfl⟩, ?_⟩
      grind
    · rw [show nearer word (some (least, a)) e = some (least, a) from if_neg hlt]
      refine ⟨hreach, ⟨f, by simp [hf], hfa, hfl⟩, ?_⟩
      grind

theorem found_foldl (word : String) (words : List (String × α)) :
    Found word words (words.foldl (nearer word) none) := by
  induction words using List.reverseRecOn with
  | nil => exact nofun
  | append_singleton seen e ih =>
    rw [List.foldl_append]
    exact ih.snoc e

/-- A value is suggested if and only if a word is within three edits, and then it is that of a
nearest one. -/
theorem nearest_cases (v : Vocabulary α) (word : String) :
    ((v.nearest word).isSome = true ↔ ∃ e ∈ v.words, distance word e.1 ≤ 3) ∧
    ∀ a, v.nearest word = some a →
      ∃ e ∈ v.words, e.2 = a ∧ ∀ d ∈ v.words, distance word e.1 ≤ distance word d.1 := by
  have hfound := found_foldl word v.words
  unfold nearest
  cases hbest : v.words.foldl (nearer word) none with
  | none =>
    rw [hbest] at hfound
    have hfar : ∀ e ∈ v.words, 3 < distance word e.1 := hfound
    refine ⟨⟨nofun, fun ⟨e, he, hle⟩ => ?_⟩, nofun⟩
    exact absurd hle (Nat.not_le_of_lt (hfar e he))
  | some best =>
    obtain ⟨least, a⟩ := best
    rw [hbest] at hfound
    obtain ⟨hreach, ⟨e, he, rfl, rfl⟩, hleast⟩ := hfound
    refine ⟨⟨fun _ => ⟨e, he, hreach⟩, fun _ => rfl⟩, fun b hb => ?_⟩
    exact ⟨e, he, Option.some.inj hb, hleast⟩

/-! ## Vocabularies -/

/-- A vocabulary with the names and the synonyms in another order. -/
structure Reordered (v w : Vocabulary α) : Prop where
  name : w.name = v.name
  ofName : w.ofName = v.ofName
  values : w.values.Perm v.values
  synonyms : w.synonyms.Perm v.synonyms

theorem Reordered.words (h : Reordered v w) : w.words.Perm v.words := by
  unfold Vocabulary.words
  rw [h.name]
  exact (h.values.map _).append h.synonyms

/-- A vocabulary in which each word stands for one value, is written in ASCII and in the form in
which words are compared, and in which values are defined and have names that read back. -/
structure Sound (v : Vocabulary α) (isDefined : α → Bool) : Prop where
  distinct : (v.words.map Prod.fst).Nodup
  ascii : ∀ e ∈ v.words, ∀ c ∈ e.1.toList, c.toNat < 0x80
  unchanged : ∀ e ∈ v.words, ∀ c ∈ e.1.toList, Text.Unchanged c
  named : ∀ e ∈ v.words, (v.name e.2, e.2) ∈ v.words
  defined : ∀ e ∈ v.words, isDefined e.2 = true
  ofName_name : ∀ e ∈ v.words, v.ofName (v.name e.2) = e.2

/-- What is checked of all characters of all words. -/
theorem forall_of_all {words : List (String × α)} {p : Char → Prop} [DecidablePred p]
    (h : (words.all fun e => e.1.toList.all fun c => p c) = true) :
    ∀ e ∈ words, ∀ c ∈ e.1.toList, p c := by
  intro e he c hc
  exact of_decide_eq_true (List.all_eq_true.1 (List.all_eq_true.1 h e he) c hc)

theorem sound_adTypes : Sound adTypes AdType.isDefined where
  distinct := by decide
  ascii := forall_of_all (by decide)
  unchanged := forall_of_all (by decide)
  named := by decide
  defined := by decide
  ofName_name e _ := AdType.ofName_name e.2

theorem sound_confirmationTypes : Sound confirmationTypes ConfirmationType.isDefined where
  distinct := by decide
  ascii := forall_of_all (by decide)
  unchanged := forall_of_all (by decide)
  named := by decide
  defined := by decide
  ofName_name e _ := ConfirmationType.ofName_name e.2

/-- Words of a vocabulary are compared as they are written. -/
theorem Sound.folded (h : Sound v isDefined) (e : String × α) (he : e ∈ v.words) :
    Names.folded e.1 = e.1 := by
  have hunchanged := h.unchanged e he
  rw [folded_eq, Text.trimBlank_of_unchanged hunchanged, Text.lower_of_unchanged hunchanged,
    String.ofList_toList]

theorem Sound.reordered (h : Sound v isDefined) (hr : Reordered v w) : Sound w isDefined where
  distinct := (hr.words.map Prod.fst).nodup_iff.2 h.distinct
  ascii e he := h.ascii e (hr.words.subset he)
  unchanged e he := h.unchanged e (hr.words.subset he)
  named e he := by
    rw [hr.name]
    exact hr.words.symm.subset (h.named e (hr.words.subset he))
  defined e he := h.defined e (hr.words.subset he)
  ofName_name e he := by
    rw [hr.name, hr.ofName]
    exact h.ofName_name e (hr.words.subset he)

/-! ## Reading a word -/

theorem lookup_eq_some_iff_mem {words : List (String × α)} (h : (words.map Prod.fst).Nodup)
    {key : String} {a : α} : words.lookup key = some a ↔ (key, a) ∈ words := by
  induction words with
  | nil => simp
  | cons e words ih =>
    obtain ⟨other, b⟩ := e
    obtain ⟨hnew, h⟩ := List.nodup_cons.1 h
    by_cases hk : key = other
    · subst hk
      have hnot : (key, a) ∉ words := fun hmem => hnew (List.mem_map.2 ⟨_, hmem, rfl⟩)
      simp [hnot, eq_comm]
    · have hbeq : (key == other) = false := beq_eq_false_iff_ne.2 hk
      simp [List.lookup_cons, hbeq, ih h, hk]

theorem Sound.read_eq_ok_iff (h : Sound v isDefined) {a : α} :
    v.read word = .ok a ↔ (Names.folded word, a) ∈ v.words := by
  rw [← lookup_eq_some_iff_mem h.distinct, read, canonical?]
  cases hl : v.words.lookup (Names.folded word) with
  | none => simp
  | some b =>
    have hback := h.ofName_name _ ((lookup_eq_some_iff_mem h.distinct).1 hl)
    simp [hback]

theorem read_eq_error {u : Unknown α} (h : v.read word = .error u) :
    u = ⟨word, v.nearest (Names.folded word)⟩ := by
  unfold read at h
  split at h
  · cases h
  · exact (Except.error.inj h).symm

/-- A form of a word is a word of the vocabulary if and only if the one that is looked up is. -/
theorem Sound.mem_words_iff (h : Sound v isDefined) (hn : Folded word n) {a : α} :
    (n, a) ∈ v.words ↔ (Names.folded word, a) ∈ v.words := by
  constructor
  · intro hmem
    have hzero := distance_eq_zero_iff.2 (rfl : n = n)
    rw [hn.distance_eq (h.ascii _ hmem), distance_eq_zero_iff] at hzero
    rwa [hzero]
  · intro hmem
    have hzero := hn.distance_eq (h.ascii _ hmem)
    rw [distance_eq_zero_iff.2 rfl, distance_eq_zero_iff] at hzero
    rwa [hzero]

/-- How a word is understood. A form of it that is a name or a synonym says what it stands for,
which is defined. Else the word is given back as it is, with a suggestion if a word is within reach:
a value one of whose words is nearest. The name of a suggestion stands for it as it is written. In
another variant the word is understood in the same way. -/
structure Resolves (v : Vocabulary α) (isDefined : α → Bool) (word n : String) : Prop where
  taken : ∀ a, v.read word = .ok a ↔ (n, a) ∈ v.words
  defined : ∀ a, v.read word = .ok a → isDefined a = true
  refused : (∀ a, (n, a) ∉ v.words) → ∃ suggestion, v.read word = .error ⟨word, suggestion⟩ ∧
    (suggestion.isSome = true ↔ ∃ e ∈ v.words, distance n e.1 ≤ 3) ∧
    ∀ a, suggestion = some a →
      (∃ e ∈ v.words, e.2 = a ∧ ∀ d ∈ v.words, distance n e.1 ≤ distance n d.1) ∧
      Names.folded (v.name a) = v.name a ∧ v.read (v.name a) = .ok a
  variant : ∀ other, Variant word other →
    v.read other = (v.read word).mapError fun u => ⟨other, u.suggestion⟩

theorem Sound.resolves (h : Sound v isDefined) (hn : Folded word n) :
    Resolves v isDefined word n where
  taken a := h.read_eq_ok_iff.trans (h.mem_words_iff hn).symm
  defined a ha := h.defined _ (h.read_eq_ok_iff.1 ha)
  refused hnone := by
    have herror : v.read word = .error ⟨word, v.nearest (Names.folded word)⟩ := by
      cases hread : v.read word with
      | ok a => exact absurd ((h.mem_words_iff hn).2 (h.read_eq_ok_iff.1 hread)) (hnone a)
      | error u => rw [read_eq_error hread]
    have hdistance : ∀ e ∈ v.words, distance n e.1 = distance (Names.folded word) e.1 :=
      fun e he => hn.distance_eq (h.ascii e he)
    obtain ⟨hsome, hnearest⟩ := v.nearest_cases (Names.folded word)
    refine ⟨_, herror, hsome.trans ?_, fun a ha => ?_⟩
    · refine exists_congr fun e => and_congr_right fun he => ?_
      rw [hdistance e he]
    · obtain ⟨e, he, rfl, hleast⟩ := hnearest a ha
      have hname : Names.folded (v.name e.2) = v.name e.2 :=
        h.folded (v.name e.2, e.2) (h.named e he)
      refine ⟨⟨e, he, rfl, fun d hd => ?_⟩, hname, ?_⟩
      · rw [hdistance e he, hdistance d hd]
        exact hleast d hd
      · rw [h.read_eq_ok_iff, hname]
        exact h.named e he
  variant other ho := by
    unfold read
    rw [ho.folded_eq]
    cases v.canonical? (Names.folded word) <;> rfl

/-- Every word is understood as the names and the synonyms say, in whatever order they are gone
through, for ad types and for confirmation types. -/
theorem words_resolved :
    (∀ v, Reordered adTypes v → ∀ word n, Folded word n →
      Resolves v AdType.isDefined word n) ∧
    ∀ v, Reordered confirmationTypes v → ∀ word n, Folded word n →
      Resolves v ConfirmationType.isDefined word n :=
  ⟨fun _ hr _ _ hn => (sound_adTypes.reordered hr).resolves hn,
    fun _ hr _ _ hn => (sound_confirmationTypes.reordered hr).resolves hn⟩

/-- A mistyped word with a blank before it, the names gone through from the last one, and a word
that ends in a capital sigma, the synonyms gone through from the last one. -/
theorem words_resolved_reversed :
    let reversedNames := { adTypes with values := adTypes.values.reverse }
    let reversedSynonyms := { confirmationTypes with
      synonyms := confirmationTypes.synonyms.reverse }
    Reordered adTypes reversedNames ∧ Folded " Serch-Ad" "serch_ad" ∧
      Resolves reversedNames AdType.isDefined " Serch-Ad" "serch_ad" ∧
    Reordered confirmationTypes reversedSynonyms ∧ Folded "LIKEΣ" "likeς" ∧
      Resolves reversedSynonyms ConfirmationType.isDefined "LIKEΣ" "likeς" := by
  intro reversedNames reversedSynonyms
  have hnames : Reordered adTypes reversedNames := ⟨rfl, rfl, List.reverse_perm _, .refl _⟩
  have hsynonyms : Reordered confirmationTypes reversedSynonyms :=
    ⟨rfl, rfl, .refl _, List.reverse_perm _⟩
  have hserch : Folded " Serch-Ad" "serch_ad" := by
    have heq : folded " Serch-Ad" = "serch_ad" := by decide
    rw [← heq]
    exact folded_folded _
  have hlike : Folded "LIKEΣ" "likeς" := by
    refine ⟨['l', 'i', 'k', 'e', 'ς'], ?_, by decide⟩
    exact .char 'L' (.char 'I' (.char 'K' (.char 'E' (.finalSigma .nil))))
  exact ⟨hnames, hserch, words_resolved.1 _ hnames _ _ hserch,
    hsynonyms, hlike, words_resolved.2 _ hsynonyms _ _ hlike⟩

example : confirmationTypes.read " Dismissed" = .ok .dismiss := rfl

end Vocabulary

end AdLedger.Names
