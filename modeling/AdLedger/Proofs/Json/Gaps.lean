import AdLedger.Proofs.Json.Reading

/-!
# Texts in documents

Every text among the tokens of a document stands in it between two quotes. The document without it
is a gap (`Gap`), into which any other text can be put: the tokens around it are the same
(`exists_gap`).
-/

namespace AdLedger.Json

open Token (scanFrom Ends Taken)

/-! ## Scanning around a text -/

namespace Token

variable {s : State} {done base : List Token} {text : List Char} {c : Char}

/-- The same state after other tokens. -/
def State.over (base : List Token) (s : State) : State := ⟨s.done ++ base, s.mode⟩

theorem begin_over : begin (done ++ base) c = (begin done c).map (State.over base) := by
  simp only [begin, apply_ite (Option.map (State.over base)), Option.map_some, Option.map_none]
  rfl

theorem finish_over : finish (s.over base) = (finish s).map (State.over base) := by
  obtain ⟨done, mode⟩ := s
  cases mode with
  | between => rfl
  | text written escape => rfl
  | number written =>
    simp only [finish, State.over]
    split <;> rfl
  | word letters =>
    simp only [finish, State.over]
    cases word? letters.reverse <;> rfl

theorem textStep_over {written : List Char} {escape : Option Escape} :
    textStep (done ++ base) written escape c =
      (textStep done written escape c).map (State.over base) := by
  unfold textStep
  repeat' split
  all_goals rfl

/-- A character is taken in the same way whatever tokens are before it. -/
theorem step_over : step (s.over base) c = (step s c).map (State.over base) := by
  have hfinish : finish (s.over base) = (finish s).map (State.over base) := finish_over
  have hends : ((finish (s.over base)).bind fun t => begin t.done c) =
      ((finish s).bind fun t => begin t.done c).map (State.over base) := by
    rw [hfinish]
    cases finish s with
    | none => rfl
    | some t => exact begin_over
  obtain ⟨done, mode⟩ := s
  cases mode with
  | between => exact begin_over
  | text written escape => exact textStep_over
  | number written =>
    simp only [step, State.over]
    split
    · rfl
    · exact hends
  | word letters =>
    simp only [step, State.over]
    split
    · rfl
    · exact hends

theorem scanFrom_over (s : State) (base : List Token) (text : List Char) :
    scanFrom (s.over base) text = (scanFrom s text).map (State.over base) := by
  induction text generalizing s with
  | nil => rfl
  | cons c text ih =>
    rw [scanFrom_cons, scanFrom_cons, step_over]
    cases step s c with
    | none => rfl
    | some t => exact ih t

theorem mode_of_finish {t : State} (h : finish s = some t) : t.mode = .between := by
  obtain ⟨done, mode⟩ := s
  cases mode with
  | between =>
    cases h
    rfl
  | text written escape => cases h
  | number written =>
    simp only [finish] at h
    split at h
    · cases h
      rfl
    · cases h
  | word letters =>
    obtain ⟨value, -, h⟩ := Option.bind_eq_some_iff.1 h
    cases h
    rfl

/-- Where a document could end, a mark or a quote can follow. -/
theorem ends_of_finish (h : finish s = some ⟨done, .between⟩) : Ends s done := by
  refine ⟨h, fun c hn hl => ?_⟩
  obtain ⟨before, mode⟩ := s
  cases mode with
  | between =>
    cases h
    rfl
  | text written escape => cases h
  | number written => simp only [step, hn, h, Bool.false_eq_true, if_false]; rfl
  | word letters => simp only [step, hl, h, Bool.false_eq_true, if_false]; rfl

end Token

/-- A document without one of its texts: what is before the quote that opens the text, and what is
after the quote that ends it. -/
structure Gap where
  before : List Char
  after : List Char

namespace Gap

/-- The document with a text in its gap, in the form that it has in documents. -/
def fill (g : Gap) (written : List Char) : String :=
  String.ofList (g.before ++ '"' :: written ++ '"' :: g.after)

/-- Where a text may begin, any text may be put, and the tokens around it are the same. -/
theorem scan_fill (g : Gap) {tokens : List Token} (hs : Token.scan g.before = some tokens)
    {written : List Char} (hw : Taken written) :
    Token.scan (g.fill written).toList =
      (Token.scan g.after).map fun rest => tokens ++ .text written :: rest := by
  obtain ⟨s, hbefore, hs⟩ := Option.bind_eq_some_iff.1 hs
  obtain ⟨⟨done, mode⟩, hfinish, hs⟩ := Option.bind_eq_some_iff.1 hs
  obtain rfl : mode = .between := Token.mode_of_finish hfinish
  obtain rfl : done.reverse = tokens := Option.some.inj hs
  have hends := Token.ends_of_finish hfinish
  have hfill : scanFrom ⟨[], .between⟩ (g.before ++ '"' :: written ++ '"' :: g.after) =
      (scanFrom ⟨[], .between⟩ g.after).map (Token.State.over (.text written :: done)) := by
    rw [List.append_assoc, Token.scanFrom_append, show scanFrom _ g.before = _ from hbefore,
      Option.bind_some, List.cons_append, hends.scanFrom_cons rfl rfl,
      ← (Token.ends_between done).scanFrom_cons rfl rfl]
    exact (hw.scanFrom_text done g.after).trans (Token.scanFrom_over ⟨[], .between⟩ _ g.after)
  rw [fill, String.toList_ofList, Token.scan, Token.scan, show List.foldlM _ _ _ = _ from hfill,
    show g.after.foldlM _ _ = scanFrom ⟨[], .between⟩ g.after from rfl]
  cases scanFrom ⟨[], .between⟩ g.after with
  | none => rfl
  | some u =>
    have hover : Token.finish (u.over (.text written :: done)) =
        (Token.finish u).map (Token.State.over (.text written :: done)) := Token.finish_over
    simp only [Option.map_some, Option.bind_eq_bind, Option.bind_some, hover]
    cases Token.finish u with
    | none => rfl
    | some v => simp [Token.State.over]

end Gap

/-! ## Finding a text -/

/-- A value that is no text, array or object. -/
def Simple : Json → Prop
  | .null | .bool _ | .number _ => True
  | .text _ | .array _ | .object _ => False

namespace Token

variable {s t : State} {done : List Token} {read : List Char} {c : Char}

/-- More tokens, with no more texts among them, and no values but simple ones. -/
structure Adds (done more : List Token) : Prop where
  texts : ∀ written earlier, .text written :: earlier <:+ more → .text written :: earlier <:+ done
  atoms : ∀ v, .atom v ∈ more → .atom v ∈ done ∨ v.Simple

theorem Adds.refl (done : List Token) : Adds done done :=
  ⟨fun _ _ h => h, fun _ h => .inl h⟩

theorem Adds.cons {more : List Token} (h : Adds done more) {x : Token}
    (ht : ∀ written, x ≠ .text written) (ha : ∀ v, x = .atom v → v.Simple) :
    Adds done (x :: more) := by
  refine ⟨fun written earlier hs => ?_, fun v hv => ?_⟩
  · obtain hs | hs := List.suffix_cons_iff.1 hs
    · exact absurd (List.cons.inj hs).1.symm (ht written)
    · exact h.texts written earlier hs
  · obtain hv | hv := List.mem_cons.1 hv
    · exact .inr (ha v hv.symm)
    · exact h.atoms v hv

theorem Adds.trans {mid more : List Token} (h : Adds done mid) (h' : Adds mid more) :
    Adds done more := by
  refine ⟨fun written earlier hs => h.texts _ _ (h'.texts _ _ hs), fun v hv => ?_⟩
  obtain hv | hv := h'.atoms v hv
  · exact h.atoms v hv
  · exact .inr hv

theorem simple_of_word? {letters : List Char} {v : Json} (h : word? letters = some v) :
    v.Simple := by
  unfold word? at h
  split at h
  · cases h
    trivial
  · split at h
    · cases h
      trivial
    · split at h
      · cases h
        trivial
      · cases h

theorem adds_of_finish (h : finish s = some t) : Adds s.done t.done := by
  obtain ⟨done, mode⟩ := s
  cases mode with
  | between =>
    cases h
    exact .refl _
  | text written escape => cases h
  | number written =>
    simp only [finish] at h
    split at h
    · cases h
      exact (Adds.refl _).cons (by simp) fun v hv => by cases hv; trivial
    · cases h
  | word letters =>
    obtain ⟨value, hv, h⟩ := Option.bind_eq_some_iff.1 h
    cases h
    exact (Adds.refl _).cons (by simp) fun v hv' => by cases hv'; exact simple_of_word? hv

/-- A text has been started. -/
def State.InText (s : State) : Prop := ∃ written escape, s.mode = .text written escape

theorem not_inText {mode : Mode} (h : ∀ written escape, mode ≠ .text written escape) :
    ¬ (⟨done, mode⟩ : State).InText := by
  rintro ⟨written, escape, hmode⟩
  exact h written escape hmode

/-- What a character does that stands between tokens: it starts a text, or adds a mark at most. -/
theorem begin_cases (h : begin done c = some t) :
    c = '"' ∧ t = ⟨done, .text [] none⟩ ∨ ¬ t.InText ∧ Adds done t.done := by
  by_cases hm : c ∈ marks
  · simp only [marks, List.mem_cons, List.not_mem_nil, or_false] at hm
    obtain rfl | rfl | rfl | rfl | rfl | rfl | rfl | rfl | rfl | rfl | rfl := hm
    all_goals obtain rfl := Option.some.inj h
    case inr.inr.inr.inr.inr.inr.inr.inr.inr.inr => exact .inl ⟨rfl, rfl⟩
    all_goals refine .inr ⟨not_inText (by simp), ?_⟩
    all_goals first
      | exact .refl _
      | exact (Adds.refl _).cons (by simp) (by simp)
  · rw [begin_of_notMem_marks hm] at h
    split at h
    · cases h
      exact .inr ⟨not_inText (by simp), .refl _⟩
    · split at h
      · cases h
        exact .inr ⟨not_inText (by simp), .refl _⟩
      · cases h

/-- What a character of a text does: it ends the text, or goes on with it. -/
theorem textStep_cases {written : List Char} {escape : Option Escape}
    (h : textStep done written escape c = some t) :
    c = '"' ∧ t = ⟨.text written.reverse :: done, .between⟩ ∨
      ∃ escape', t = ⟨done, .text (c :: written) escape'⟩ := by
  unfold textStep at h
  split at h
  · split at h
    next hc =>
      cases h
      exact .inl ⟨hc, rfl⟩
    next =>
      split at h
      · cases h
        exact .inr ⟨_, rfl⟩
      · split at h
        · cases h
        · cases h
          exact .inr ⟨_, rfl⟩
  · split at h
    · cases h
      exact .inr ⟨_, rfl⟩
    · split at h
      · cases h
        exact .inr ⟨_, rfl⟩
      · cases h
  · split at h
    · cases h
    · split at h
      · cases h
        exact .inr ⟨_, rfl⟩
      · cases h
        exact .inr ⟨_, rfl⟩

/-- What a character does outside of texts: it starts a text where a document could have ended, or
leaves the texts as they are. -/
theorem step_cases (h : step s c = some t) (hs : ¬ s.InText) :
    (∃ done, c = '"' ∧ finish s = some ⟨done, .between⟩ ∧ t = ⟨done, .text [] none⟩) ∨
      ¬ t.InText ∧ Adds s.done t.done := by
  have hends : ∀ u, finish s = some u → begin u.done c = some t →
      (∃ done, c = '"' ∧ finish s = some ⟨done, .between⟩ ∧ t = ⟨done, .text [] none⟩) ∨
        ¬ t.InText ∧ Adds s.done t.done := by
    intro u hu hb
    obtain ⟨hc, rfl⟩ | ⟨hn, ha⟩ := begin_cases hb
    · obtain ⟨done, mode⟩ := u
      obtain rfl : mode = .between := mode_of_finish hu
      exact .inl ⟨done, hc, hu, rfl⟩
    · exact .inr ⟨hn, (adds_of_finish hu).trans ha⟩
  obtain ⟨done, mode⟩ := s
  cases mode with
  | between => exact hends _ rfl h
  | text written escape => exact absurd ⟨written, escape, rfl⟩ hs
  | number written =>
    simp only [step] at h
    split at h
    · cases h
      exact .inr ⟨not_inText (by simp), .refl _⟩
    · obtain ⟨u, hu, hb⟩ := Option.bind_eq_some_iff.1 h
      exact hends u hu hb
  | word letters =>
    simp only [step] at h
    split at h
    · cases h
      exact .inr ⟨not_inText (by simp), .refl _⟩
    · obtain ⟨u, hu, hb⟩ := Option.bind_eq_some_iff.1 h
      exact hends u hu hb

/-- Where the texts are that have been scanned, of which the last may have been started only. -/
structure Traced (read : List Char) (s : State) : Prop where
  texts : ∀ written earlier, .text written :: earlier <:+ s.done → ∃ g : Gap,
    read = g.before ++ '"' :: written ++ '"' :: g.after ∧ scan g.before = some earlier.reverse
  started : ∀ written escape, s.mode = .text written escape → ∃ before,
    read = before ++ '"' :: written.reverse ∧ scan before = some s.done.reverse
  atoms : ∀ v, .atom v ∈ s.done → v.Simple

theorem scan_eq {u : State} (hs : scanFrom ⟨[], .between⟩ read = some s) (hu : finish s = some u) :
    scan read = some u.done.reverse :=
  Option.bind_eq_some_iff.2 ⟨s, hs, Option.bind_eq_some_iff.2 ⟨u, hu, rfl⟩⟩

/-- Texts that were there before are where they were. -/
theorem Traced.texts_snoc (h : Traced read s) (ha : Adds s.done done) (c : Char) :
    ∀ written earlier, .text written :: earlier <:+ done → ∃ g : Gap,
      read ++ [c] = g.before ++ '"' :: written ++ '"' :: g.after ∧
      scan g.before = some earlier.reverse := by
  intro written earlier hw
  obtain ⟨g, rfl, hb⟩ := h.texts written earlier (ha.texts _ _ hw)
  exact ⟨⟨g.before, g.after ++ [c]⟩, by simp, hb⟩

theorem Traced.atoms_of_adds (h : Traced read s) (ha : Adds s.done done) :
    ∀ v, .atom v ∈ done → v.Simple := by
  intro v hv
  obtain hv | hv := ha.atoms v hv
  · exact h.atoms v hv
  · exact hv

theorem Traced.step (h : Traced read s) (hs : scanFrom ⟨[], .between⟩ read = some s)
    (ht : Token.step s c = some t) : Traced (read ++ [c]) t := by
  by_cases hin : s.InText
  · obtain ⟨written, escape, hmode⟩ := hin
    obtain ⟨before, hread, hb⟩ := h.started written escape hmode
    rw [Token.step, hmode] at ht
    obtain ⟨rfl, rfl⟩ | ⟨escape', rfl⟩ := textStep_cases ht
    · refine ⟨fun other earlier hw => ?_, by simp, fun v hv => h.atoms v (by simpa using hv)⟩
      obtain hw | hw := List.suffix_cons_iff.1 hw
      · cases hw
        exact ⟨⟨before, []⟩, by simp [hread], hb⟩
      · exact h.texts_snoc (.refl _) '"' other earlier hw
    · refine ⟨h.texts_snoc (.refl _) c, fun other escape'' hm => ?_, h.atoms⟩
      cases hm
      exact ⟨before, by simp [hread], hb⟩
  · obtain ⟨done, rfl, hfinish, rfl⟩ | ⟨hout, ha⟩ := step_cases ht hin
    · have ha := adds_of_finish hfinish
      have hb := scan_eq hs hfinish
      refine ⟨h.texts_snoc ha '"', fun other escape hm => ?_, h.atoms_of_adds ha⟩
      cases hm
      exact ⟨read, rfl, hb⟩
    · refine ⟨h.texts_snoc ha c, fun other escape hm => ?_, h.atoms_of_adds ha⟩
      exact absurd ⟨other, escape, hm⟩ hout

/-- By induction on the characters that follow. -/
theorem Traced.scanFrom {more : List Char} (h : Traced read s)
    (hs : Token.scanFrom ⟨[], .between⟩ read = some s) (ht : Token.scanFrom s more = some t) :
    Traced (read ++ more) t := by
  induction more generalizing read s with
  | nil =>
    cases ht
    rwa [List.append_nil]
  | cons c more ih =>
    rw [scanFrom_cons] at ht
    obtain ⟨mid, hmid, ht⟩ := Option.bind_eq_some_iff.1 ht
    have hread : Token.scanFrom ⟨[], .between⟩ (read ++ [c]) = some mid := by
      rw [scanFrom_append, hs, Option.bind_some, scanFrom_cons, hmid]
      rfl
    rw [List.append_cons]
    exact ih (h.step hs hmid) hread ht

theorem traced_nil : Traced [] ⟨[], .between⟩ := ⟨by simp, by simp, by simp⟩

/-- The tokens of a document, up to the end of the last one. -/
theorem exists_traced {text : List Char} {tokens : List Token} (h : scan text = some tokens) :
    ∃ s, Traced text s ∧ Adds s.done tokens.reverse := by
  obtain ⟨s, hs, h⟩ := Option.bind_eq_some_iff.1 h
  obtain ⟨u, hu, h⟩ := Option.bind_eq_some_iff.1 h
  cases h
  refine ⟨s, traced_nil.scanFrom rfl hs, ?_⟩
  rw [List.reverse_reverse]
  exact adds_of_finish hu

end Token

/-- The values that are tokens of a document are simple. -/
theorem simple_of_scan {text : List Char} {tokens : List Token} (h : Token.scan text = some tokens)
    {v : Json} (hv : .atom v ∈ tokens) : v.Simple := by
  obtain ⟨s, hs, ha⟩ := Token.exists_traced h
  exact hs.atoms_of_adds ha v (List.mem_reverse.2 hv)

/-- A text among the tokens of a document is in a gap of it, and whatever text is put there, the
tokens before and after it are the same. -/
theorem exists_gap {content : String} {pre post : List Token} {written : List Char}
    (h : Token.scan content.toList = some (pre ++ .text written :: post)) (hw : Taken written) :
    ∃ g : Gap, content = g.fill written ∧ ∀ other, Taken other →
      Token.scan (g.fill other).toList = some (pre ++ .text other :: post) := by
  obtain ⟨s, hs, ha⟩ := Token.exists_traced h
  have hsuffix : .text written :: pre.reverse <:+ (pre ++ .text written :: post).reverse := by
    simp
  obtain ⟨g, hread, hbefore⟩ := hs.texts written pre.reverse (ha.texts _ _ hsuffix)
  rw [List.reverse_reverse] at hbefore
  have hcontent : content = g.fill written := by
    rw [Gap.fill, ← hread, String.ofList_toList]
  refine ⟨g, hcontent, fun other ho => ?_⟩
  rw [hcontent, g.scan_fill hbefore hw] at h
  obtain ⟨rest, hafter, hrest⟩ := Option.map_eq_some_iff.1 h
  cases List.append_cancel_left hrest
  rw [g.scan_fill hbefore ho, hafter, Option.map_some]

end AdLedger.Json
