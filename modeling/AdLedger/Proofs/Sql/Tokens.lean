import Mathlib.Data.List.SplitBy
import AdLedger.Proofs.Sql.Text
import AdLedger.Proofs.Text.Digits

/-!
# Readers of words

A text is taken as words and single characters, whatever blanks stand between them (`tokens`). A
reader takes some of these off the front. What one takes off a text does not depend on the text that
is written after it, if that does not go on with a word (`Reads`).
-/

namespace AdLedger.Sql

/-! ## Tokens -/

/-- The words of a text, and its other characters one by one, without the blanks. -/
def tokens (s : List Char) : List (List Char) :=
  (s.splitBy fun a b => isNameChar a && isNameChar b).filter fun t => !t.all isSpace

/-- The text does not begin within a word. -/
def opens (s : List Char) : Bool := s.head?.all fun c => !isNameChar c

/-- The text does not end within a word. -/
def closes (s : List Char) : Bool := s.getLast?.all fun c => !isNameChar c

/-- Two lists of tokens have different ones at some place. -/
def differ (a b : List (List Char)) : Bool := (a.zip b).any fun p => p.1 ≠ p.2

section Tokens

variable {s rest : List Char}

theorem opens_append (hs : opens s = true) (hr : opens rest = true) :
    opens (s ++ rest) = true := by
  cases s with
  | nil => exact hr
  | cons c s => exact hs

theorem opens_append_of_ne_nil (hne : s ≠ []) : opens (s ++ rest) = opens s := by
  obtain ⟨c, s, rfl⟩ := List.exists_cons_of_ne_nil hne
  rfl

/-- The tokens of two texts together are those of the one and those of the other, if no word is
made of both. -/
theorem tokens_append (h : closes s = true ∨ opens rest = true) :
    tokens (s ++ rest) = tokens s ++ tokens rest := by
  rw [tokens, List.splitBy_append, List.filter_append]
  · rfl
  · intro x hx y hy
    rw [Bool.and_eq_false_iff]
    refine h.imp (fun h => ?_) fun h => ?_
    · exact (Bool.not_eq_true' _).mp ((Option.all_eq_true _ _).1 h x hx)
    · exact (Bool.not_eq_true' _).mp ((Option.all_eq_true _ _).1 h y hy)

theorem isNameChar_of_isSpace {c : Char} (h : isSpace c = true) : isNameChar c = false := by
  obtain hblank | hrun := Bool.or_eq_true_iff.1 h
  · rw [of_decide_eq_true hblank]
    decide
  · obtain ⟨hlow, hhigh⟩ := Bool.and_eq_true_iff.1 hrun
    have hlow : 9 ≤ c.toNat := UInt32.le_iff_toNat_le.1 (of_decide_eq_true hlow)
    have hhigh : c.toNat ≤ 13 := UInt32.le_iff_toNat_le.1 (of_decide_eq_true hhigh)
    have hc : c.toNat = 9 ∨ c.toNat = 10 ∨ c.toNat = 11 ∨ c.toNat = 12 ∨ c.toNat = 13 := by omega
    rw [← Char.ofNat_toNat c]
    obtain hc | hc | hc | hc | hc := hc <;> rw [hc] <;> decide

theorem tokens_word {w : List Char} (hne : w ≠ []) (h : w.all isNameChar = true) :
    tokens w = [w] := by
  rw [List.all_eq_true] at h
  have hchain : w.IsChain fun a b => (isNameChar a && isNameChar b) = true :=
    (List.pairwise_of_forall_mem_list fun a ha b hb => by rw [h a ha, h b hb]; rfl).isChain
  obtain ⟨c, w, rfl⟩ := List.exists_cons_of_ne_nil hne
  have hspace : isSpace c = false := Bool.eq_false_iff.2 fun hs =>
    Bool.false_ne_true ((isNameChar_of_isSpace hs).symm.trans (h c List.mem_cons_self))
  rw [tokens, List.splitBy_of_isChain hne hchain]
  simp [hspace]

theorem IsName.ne_nil {n : String} (h : IsName n) : n.toList ≠ [] := by
  intro hnil
  have hstart := h.start
  rw [hnil] at hstart
  cases hstart

theorem IsName.tokens_eq {n : String} (h : IsName n) : tokens n.toList = [n.toList] :=
  tokens_word h.ne_nil h.chars

theorem not_prefix_of_differ {a b c : List (List Char)} (h : differ a b = true) :
    ¬a <+: b ++ c := by
  induction a generalizing b with
  | nil => simp [differ] at h
  | cons x a ih =>
    cases b with
    | nil => simp [differ] at h
    | cons y b =>
      rw [List.cons_append, List.cons_prefix_cons]
      rintro ⟨rfl, hp⟩
      exact ih (by simpa [differ] using h) hp

end Tokens

/-! ## Readers -/

/-- A step that takes tokens off the front, or fails. -/
abbrev Reader := StateT (List (List Char)) Option

namespace Reader

variable {α β : Type}

/-- Takes the tokens of a phrase if they come next, and tells whether they do. -/
def flag (s : String) : Reader Bool := fun ts =>
  let phrase := tokens s.toList
  some (if phrase <+: ts then (true, ts.drop phrase.length) else (false, ts))

def phrase (s : String) : Reader Unit := do
  if ← flag s then pure () else failure

def word : Reader String := fun
  | [] => none
  | t :: ts => some (String.ofList t, ts)

def name : Reader String := do
  let w ← word
  if IsName w then pure w else failure

def number : Reader Nat := do
  match Text.natural? (← word).toList with
  | some n => pure n
  | none => failure

/-- Takes items as long as there are any, but not more than a number of them. -/
def many (item : Reader α) : Nat → Reader (List α)
  | 0 => pure []
  | n + 1 => (do return (← item) :: (← many item n)) <|> pure []

/-- Takes items as long as there are any. -/
def all (item : Reader α) : Reader (List α) := do many item (← get).length

/-- Takes items with commas between them. -/
def listed (item : Reader α) : Reader (List α) :=
  (do return (← item) :: (← all (do phrase ","; item))) <|> pure []

/-- Takes one of several phrases, and what belongs after it. -/
def choice : List (String × Reader α) → Reader α
  | [] => failure
  | (lead, reader) :: others => do
    if ← flag lead then reader else choice others

section Steps

variable {m : Reader α} {f : α → Reader β} {a : α} {ts : List (List Char)}

theorem bind_eq {rest : List (List Char)} (h : m ts = some (a, rest)) :
    (m >>= f) ts = f a rest := by
  simp [bind, StateT.bind, h]

theorem bind_none (h : m ts = none) : (m >>= f) ts = none := by
  simp [bind, StateT.bind, h]

theorem orElse_eq {m' : Reader α} {r : α × List (List Char)} (h : m ts = some r) :
    (m <|> m') ts = some r := by
  show (m ts <|> m' ts) = some r
  rw [h]
  rfl

theorem orElse_none {m' : Reader α} (h : m ts = none) : (m <|> m') ts = m' ts := by
  show (m ts <|> m' ts) = m' ts
  rw [h]
  rfl

end Steps

section Phrases

variable {s t : String} {rest : List Char}

theorem flag_append (h : closes s.toList = true ∨ opens rest = true) :
    flag s (tokens (s.toList ++ rest)) = some (true, tokens rest) := by
  rw [tokens_append h, flag, if_pos (List.prefix_append _ _), List.drop_left]

theorem flag_other (hd : differ (tokens s.toList) (tokens t.toList) = true)
    (h : closes t.toList = true ∨ opens rest = true) :
    flag s (tokens (t.toList ++ rest)) = some (false, tokens (t.toList ++ rest)) := by
  rw [tokens_append h, flag, if_neg (not_prefix_of_differ hd)]

theorem phrase_append (h : closes s.toList = true ∨ opens rest = true) :
    phrase s (tokens (s.toList ++ rest)) = some ((), tokens rest) := by
  rw [phrase, bind_eq (flag_append h)]
  rfl

theorem phrase_other (hd : differ (tokens s.toList) (tokens t.toList) = true)
    (h : closes t.toList = true ∨ opens rest = true) :
    phrase s (tokens (t.toList ++ rest)) = none := by
  rw [phrase, bind_eq (flag_other hd h)]
  rfl

theorem word_append {w : String} (hne : w.toList ≠ []) (hw : w.toList.all isNameChar = true)
    (h : opens rest = true) : word (tokens (w.toList ++ rest)) = some (w, tokens rest) := by
  rw [tokens_append (.inr h), tokens_word hne hw, ← w.ofList_toList]
  simp [word]

theorem name_append {n : String} (hn : IsName n) (h : opens rest = true) :
    name (tokens (n.toList ++ rest)) = some (n, tokens rest) := by
  rw [name, bind_eq (word_append hn.ne_nil hn.chars h), if_pos hn]
  rfl

/-- A phrase does not come next where a name does that is not its first word. -/
theorem flag_name {n : String} (hn : IsName n) {w : List Char}
    (hs : (tokens s.toList).head? = some w) (hw : w ≠ n.toList) (h : opens rest = true) :
    flag s (tokens (n.toList ++ rest)) = some (false, tokens (n.toList ++ rest)) := by
  obtain ⟨ws, hs⟩ := List.head?_eq_some_iff.1 hs
  rw [flag, tokens_append (.inr h), hn.tokens_eq, hs, if_neg]
  intro hp
  exact hw (List.cons_prefix_cons.1 hp).1

/-- What begins with a token that is not a name gives none. -/
theorem name_other (hd : (tokens t.toList).head?.any (fun w => ¬IsName (String.ofList w)) = true)
    (h : closes t.toList = true ∨ opens rest = true) :
    name (tokens (t.toList ++ rest)) = none := by
  rw [tokens_append h]
  cases ht : tokens t.toList with
  | nil =>
    rw [ht] at hd
    cases hd
  | cons w ts =>
    rw [ht] at hd
    rw [name, List.cons_append, bind_eq rfl, if_neg (by simpa using hd)]
    rfl

theorem number_append (n : Nat) (h : opens rest = true) :
    number (tokens ((Text.natural n).toList ++ rest)) = some (n, tokens rest) := by
  have hdigits : (Text.natural n).toList = Nat.toDigits 10 n := String.toList_ofList
  have hall : (Text.natural n).toList.all isNameChar = true := by
    rw [hdigits, List.all_eq_true]
    intro c hc
    have hdigit := Text.isDigit_of_mem_toDigits hc
    simp [isNameChar, Char.isAlphanum, hdigit]
  rw [number, bind_eq (word_append (by rw [hdigits]; exact Nat.toDigits_ne_nil) hall h), hdigits,
    Text.natural?_toDigits]
  rfl

end Phrases

/-- A reader takes a text for a value if nothing is written after it that would belong to its last
word. -/
structure Reads (r : Reader α) (s : String) (a : α) : Prop where
  takes : ∀ {rest}, opens rest = true → r (tokens (s.toList ++ rest)) = some (a, tokens rest)
  nonempty : tokens s.toList ≠ []

theorem reads_name {n : String} (hn : IsName n) : Reads name n n where
  takes h := name_append hn h
  nonempty := by simp [hn.tokens_eq]

section Lists

variable {item : Reader α} {text : α → String} {as : List α} {rest : List Char}

theorem opens_join {texts : List String} (ho : ∀ s ∈ texts, opens s.toList = true)
    (hr : opens rest = true) : opens ((String.join texts).toList ++ rest) = true := by
  induction texts with
  | nil => exact hr
  | cons s texts ih =>
    obtain ⟨hs, ho⟩ := List.forall_mem_cons.1 ho
    rw [String.join_cons, String.toList_append, List.append_assoc]
    exact opens_append hs (ih ho)

theorem many_append (h : ∀ a ∈ as, Reads item (text a) a)
    (ho : ∀ s ∈ as.map text, opens s.toList = true) (hr : opens rest = true)
    (hend : item (tokens rest) = none) {n : Nat} (hn : as.length ≤ n) :
    many item n (tokens ((String.join (as.map text)).toList ++ rest)) =
      some (as, tokens rest) := by
  induction as generalizing n with
  | nil =>
    cases n with
    | zero => rfl
    | succ n => exact orElse_none (bind_none hend)
  | cons a as ih =>
    obtain ⟨n, rfl⟩ := Nat.exists_eq_add_of_lt hn
    obtain ⟨ha, h⟩ := List.forall_mem_cons.1 h
    obtain ⟨-, ho⟩ := List.forall_mem_cons.1 ho
    rw [List.map_cons, String.join_cons, String.toList_append, List.append_assoc]
    refine orElse_eq ?_
    rw [bind_eq (ha.takes (opens_join ho hr)), bind_eq (ih h ho (by simp))]
    rfl

theorem length_le_tokens (h : ∀ a ∈ as, Reads item (text a) a)
    (ho : ∀ s ∈ as.map text, opens s.toList = true) (hr : opens rest = true) :
    as.length ≤ (tokens ((String.join (as.map text)).toList ++ rest)).length := by
  induction as with
  | nil => exact Nat.zero_le _
  | cons a as ih =>
    obtain ⟨ha, h⟩ := List.forall_mem_cons.1 h
    obtain ⟨-, ho⟩ := List.forall_mem_cons.1 ho
    have hpos := List.length_pos_iff.2 ha.nonempty
    have hle := ih h ho
    rw [List.map_cons, String.join_cons, String.toList_append, List.append_assoc,
      tokens_append (.inr (opens_join ho hr)), List.length_append, List.length_cons]
    omega

theorem all_append (h : ∀ a ∈ as, Reads item (text a) a)
    (ho : ∀ s ∈ as.map text, opens s.toList = true) (hr : opens rest = true)
    (hend : item (tokens rest) = none) :
    all item (tokens ((String.join (as.map text)).toList ++ rest)) = some (as, tokens rest) :=
  many_append h ho hr hend (length_le_tokens h ho hr)

theorem intercalate_cons (sep s : String) (texts : List String) :
    sep.intercalate (s :: texts) = s ++ String.join (texts.map (sep ++ ·)) := by
  induction texts generalizing s with
  | nil => simp
  | cons t texts ih =>
    rw [String.intercalate_cons_cons, ih, List.map_cons, String.join_cons, String.append_assoc,
      String.append_assoc]

theorem opens_next {sep : String} (hne : sep.toList ≠ []) (hs : opens sep.toList = true)
    (texts : List String) : ∀ s ∈ texts.map (sep ++ ·), opens s.toList = true := by
  refine List.forall_mem_map.2 fun s _ => ?_
  rw [String.toList_append, opens_append_of_ne_nil hne, hs]

section Commas

variable {sep : String} (hsep : tokens sep.toList = [[',']]) (hc : closes sep.toList = true)
include hsep hc

omit hc in
theorem comma_ne_nil : sep.toList ≠ [] := by
  intro hnil
  rw [hnil] at hsep
  cases hsep

theorem phrase_comma (rest : List Char) :
    phrase "," (tokens (sep.toList ++ rest)) = some ((), tokens rest) := by
  rw [tokens_append (.inl hc), hsep]
  rfl

theorem reads_next {s : String} {a : α} (h : Reads item s a) :
    Reads (do phrase ","; item) (sep ++ s) a where
  takes hr := by
    rw [String.toList_append, List.append_assoc, bind_eq (phrase_comma hsep hc _)]
    exact h.takes hr
  nonempty := by
    rw [String.toList_append, tokens_append (.inl hc), hsep]
    exact nofun

variable (hs : opens sep.toList = true)
include hs

theorem all_next (h : ∀ a ∈ as, Reads item (text a) a) (hr : opens rest = true)
    (hmore : (do phrase ","; item) (tokens rest) = none) :
    all (do phrase ","; item)
        (tokens ((String.join ((as.map text).map (sep ++ ·))).toList ++ rest)) =
      some (as, tokens rest) := by
  have ho := opens_next (comma_ne_nil hsep) hs (as.map text)
  rw [show (as.map text).map (sep ++ ·) = as.map fun a => sep ++ text a from List.map_map] at ho ⊢
  exact all_append (fun a ha => reads_next hsep hc (h a ha)) ho hr hmore

/-- Items with commas between them are taken up to where there is neither an item nor a comma and
an item. -/
theorem listed_append (h : ∀ a ∈ as, Reads item (text a) a) (hr : opens rest = true)
    (hend : item (tokens rest) = none) (hmore : (do phrase ","; item) (tokens rest) = none) :
    listed item (tokens ((sep.intercalate (as.map text)).toList ++ rest)) =
      some (as, tokens rest) := by
  cases as with
  | nil => exact orElse_none (bind_none hend)
  | cons a as =>
    obtain ⟨ha, h⟩ := List.forall_mem_cons.1 h
    rw [List.map_cons, intercalate_cons, String.toList_append, List.append_assoc]
    refine orElse_eq ?_
    rw [bind_eq (ha.takes (opens_join (opens_next (comma_ne_nil hsep) hs _) hr)),
      bind_eq (all_next hsep hc hs h hr hmore)]
    rfl

end Commas

end Lists

theorem choice_append {kinds : List (String × Reader α)} {lead : String} {reader : Reader α}
    (hd : (kinds.map Prod.fst).Pairwise fun s t =>
      differ (tokens s.toList) (tokens t.toList) = true)
    (hmem : (lead, reader) ∈ kinds) (hc : closes lead.toList = true) (rest : List Char) :
    choice kinds (tokens (lead.toList ++ rest)) = reader (tokens rest) := by
  induction kinds with
  | nil => cases hmem
  | cons kind kinds ih =>
    obtain ⟨first, other⟩ := kind
    obtain ⟨hfirst, hd⟩ := List.pairwise_cons.1 hd
    obtain heq | hmem := List.mem_cons.1 hmem
    · cases heq
      rw [choice, bind_eq (flag_append (.inl hc)), if_pos rfl]
    · have hdiffer := hfirst lead (List.mem_map_of_mem hmem)
      rw [choice, bind_eq (flag_other hdiffer (.inl hc)), if_neg Bool.false_ne_true]
      exact ih hd hmem

end Reader

end AdLedger.Sql
