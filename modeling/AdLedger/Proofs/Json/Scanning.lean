import AdLedger.Json.Token
import AdLedger.Proofs.Text.Digits
import Mathlib.Data.List.TakeWhile

/-!
# Tokens of written documents

Texts, numbers and words as they are written, and the tokens that the scanner makes of them.
-/

namespace AdLedger.Json.Token

open Text

/-- The state after some more characters. -/
def scanFrom (s : State) (text : List Char) : Option State := text.foldlM step s

@[simp] theorem scanFrom_nil (s : State) : scanFrom s [] = some s := rfl

theorem scanFrom_cons (s : State) (c : Char) (text : List Char) :
    scanFrom s (c :: text) = (step s c).bind (scanFrom · text) := rfl

theorem scanFrom_append (s : State) (text more : List Char) :
    scanFrom s (text ++ more) = (scanFrom s text).bind (scanFrom · more) := List.foldlM_append

/-- What has been started can end here, and these are the tokens then. -/
structure Ends (s : State) (done : List Token) : Prop where
  finish_eq : finish s = some ⟨done, .between⟩
  step_eq : ∀ c, inNumber c = false → c.isLower = false → step s c = begin done c

theorem ends_between (done : List Token) : Ends ⟨done, .between⟩ done := ⟨rfl, fun _ _ _ => rfl⟩

theorem Ends.scanFrom_cons {s : State} {done : List Token} (h : Ends s done) {c : Char}
    (hn : inNumber c = false) (hl : c.isLower = false) (text : List Char) :
    scanFrom s (c :: text) = (begin done c).bind (scanFrom · text) := by
  rw [Token.scanFrom_cons, h.step_eq c hn hl]

/-- Characters that each go on with what has been started. -/
theorem scanFrom_run (mode : List Char → Mode) {done : List Token} {run : List Char}
    (h : ∀ c ∈ run, ∀ written, step ⟨done, mode written⟩ c = some ⟨done, mode (c :: written)⟩)
    (written : List Char) :
    scanFrom ⟨done, mode written⟩ run = some ⟨done, mode (run.reverse ++ written)⟩ := by
  induction run generalizing written with
  | nil => rfl
  | cons c run ih =>
    obtain ⟨hc, hrun⟩ := List.forall_mem_cons.1 h
    rw [scanFrom_cons, hc, Option.bind_some, ih hrun, List.reverse_cons, List.append_assoc]
    rfl

/-- Blanks, the characters that are tokens by themselves, and the one that opens a text. -/
def marks : List Char := [' ', '\n', '\t', '\r', '[', ']', '\x7b', '\x7d', ',', ':', '"']

theorem begin_of_notMem_marks {c : Char} (h : c ∉ marks) (done : List Token) :
    begin done c = if c.isDigit ∨ c = '-' then some ⟨done, .number [c]⟩
      else if c.isLower then some ⟨done, .word [c]⟩ else none := by
  simp only [marks, List.mem_cons, List.not_mem_nil, not_or, or_false] at h
  simp [begin, h]

/-! ## Numbers -/

theorem begin_digit {c : Char} (h : c.isDigit = true) (done : List Token) :
    begin done c = some ⟨done, .number [c]⟩ := by
  have hmarks : ∀ d ∈ marks, ¬ d.isDigit = true := by simp [marks]
  rw [begin_of_notMem_marks fun hc => hmarks c hc h, if_pos (.inl h)]

theorem scanFrom_digits {run : List Char} (h : ∀ c ∈ run, c.isDigit = true) (done : List Token)
    (written : List Char) :
    scanFrom ⟨done, .number written⟩ run = some ⟨done, .number (run.reverse ++ written)⟩ := by
  refine scanFrom_run .number (fun c hc written => ?_) written
  have hin : inNumber c = true := by simp [inNumber, h c hc]
  simp [step, hin]

/-- A number has no zero in front unless it is zero. -/
theorem toDigits_eq_zero_or_head (n : Nat) :
    Nat.toDigits 10 n = ['0'] ∨ ∃ d run, Nat.toDigits 10 n = d :: run ∧ d ≠ '0' := by
  induction n using Nat.strongRecOn with
  | ind n ih =>
    by_cases h : n < 10
    · have hdigit : ∀ m < 10, m ≠ 0 → Nat.digitChar m ≠ '0' := by decide
      rw [Nat.toDigits_of_lt_base h]
      by_cases h0 : n = 0
      · exact .inl (h0 ▸ rfl)
      · exact .inr ⟨_, [], rfl, hdigit n h h0⟩
    · rw [Nat.toDigits_of_base_le (by decide) (Nat.not_lt.1 h)]
      obtain hd | ⟨d, run, hd, hne⟩ := ih (n / 10) (by omega)
      · have hvalue := ofDigits_toDigits (n / 10)
        rw [hd] at hvalue
        have h0 : n / 10 = 0 := hvalue.symm
        omega
      · exact .inr ⟨d, run ++ [Nat.digitChar (n % 10)], by rw [hd]; rfl, hne⟩

theorem isNumber_toDigits (n : Nat) : isNumber (Nat.toDigits 10 n) = true := by
  have hall : ∀ c ∈ Nat.toDigits 10 n, c.isDigit = true := fun _ => isDigit_of_mem_toDigits
  obtain h | ⟨d, run, h, hzero⟩ := toDigits_eq_zero_or_head n
  · rw [h]
    rfl
  · rw [h] at hall ⊢
    have hminus : d ≠ '-' := by
      rintro rfl
      exact absurd (hall '-' List.mem_cons_self) (by decide)
    have hskip : skipDigits? (d :: run) = some [] := by
      have htake : (d :: run).takeWhile Char.isDigit = d :: run := List.takeWhile_eq_self_iff.2 hall
      have hdrop : (d :: run).dropWhile Char.isDigit = [] := List.dropWhile_eq_nil_iff.2 hall
      simp [skipDigits?, htake, hdrop]
    simp [isNumber, hminus, hzero, hskip]

theorem scanFrom_nat (n : Nat) (done : List Token) : ∃ s,
    scanFrom ⟨done, .between⟩ (Nat.toDigits 10 n) = some s ∧ Ends s (.atom (.ofNat n) :: done) := by
  have hall : ∀ c ∈ Nat.toDigits 10 n, c.isDigit = true := fun _ => isDigit_of_mem_toDigits
  have hnumber := isNumber_toDigits n
  refine ⟨⟨done, .number (Nat.toDigits 10 n).reverse⟩, ?_, ?_⟩
  · obtain ⟨d, run, h⟩ := List.exists_cons_of_ne_nil (Nat.toDigits_ne_nil (n := n) (b := 10))
    rw [h] at hall ⊢
    obtain ⟨hd, hrun⟩ := List.forall_mem_cons.1 hall
    have hstep : step ⟨done, .between⟩ d = some ⟨done, .number [d]⟩ := begin_digit hd done
    rw [scanFrom_cons, hstep, Option.bind_some, scanFrom_digits hrun, List.reverse_cons]
  · constructor
    · simp [finish, hnumber, Json.ofNat]
    · intro c hn hl
      simp [step, hn, finish, hnumber, Json.ofNat]

/-! ## Words -/

theorem begin_lower {c : Char} (h : c.isLower = true) (done : List Token) :
    begin done c = some ⟨done, .word [c]⟩ := by
  have hmarks : ∀ d ∈ marks, ¬ d.isLower = true := by simp [marks]
  have hminus : c ≠ '-' := by
    rintro rfl
    cases h
  have hdigit : ¬ c.isDigit = true := by
    intro hc
    have hhigh : c.toNat ≤ 57 := of_decide_eq_true (Bool.and_eq_true_iff.1 hc).2
    have hlow : 97 ≤ c.toNat := of_decide_eq_true (Bool.and_eq_true_iff.1 h).1
    omega
  rw [begin_of_notMem_marks fun hc => hmarks c hc h, if_neg (not_or.2 ⟨hdigit, hminus⟩), if_pos h]

theorem scanFrom_letters {run : List Char} (h : ∀ c ∈ run, c.isLower = true) (done : List Token)
    (letters : List Char) :
    scanFrom ⟨done, .word letters⟩ run = some ⟨done, .word (run.reverse ++ letters)⟩ := by
  refine scanFrom_run .word (fun c hc letters => ?_) letters
  simp [step, h c hc]

theorem scanFrom_word {word : List Char} {value : Json} (hne : word ≠ [])
    (hl : ∀ c ∈ word, c.isLower = true) (hv : word? word = some value) (done : List Token) :
    ∃ s, scanFrom ⟨done, .between⟩ word = some s ∧ Ends s (.atom value :: done) := by
  refine ⟨⟨done, .word word.reverse⟩, ?_, ?_⟩
  · obtain ⟨c, run, rfl⟩ := List.exists_cons_of_ne_nil hne
    obtain ⟨hc, hrun⟩ := List.forall_mem_cons.1 hl
    have hstep : step ⟨done, .between⟩ c = some ⟨done, .word [c]⟩ := begin_lower hc done
    rw [scanFrom_cons, hstep, Option.bind_some, scanFrom_letters hrun, List.reverse_cons]
  · constructor
    · simp [finish, hv]
    · intro c _ hc
      simp [step, hc, finish, hv]

/-! ## Texts -/

/-- Characters that go on with a text and leave no escape open. -/
def Taken (piece : List Char) : Prop := ∀ done before,
  scanFrom ⟨done, .text before none⟩ piece = some ⟨done, .text (piece.reverse ++ before) none⟩

theorem Taken.append {piece more : List Char} (h : Taken piece) (h' : Taken more) :
    Taken (piece ++ more) := by
  intro done before
  rw [scanFrom_append, h, Option.bind_some, h', List.reverse_append, List.append_assoc]

theorem taken_unit {a b c d : Char} {n : Nat} (h : hexNumber? a b c d = some n) :
    Taken ['\\', 'u', a, b, c, d] := by
  obtain ⟨x, ha, h⟩ := Option.bind_eq_some_iff.1 h
  obtain ⟨y, hb, h⟩ := Option.bind_eq_some_iff.1 h
  obtain ⟨z, hc, h⟩ := Option.bind_eq_some_iff.1 h
  obtain ⟨u, hd, -⟩ := Option.bind_eq_some_iff.1 h
  intro done before
  simp [scanFrom_cons, step, textStep, ha, hb, hc, hd]

theorem taken_escape {e x : Char} (h : escaped? e = some x) : Taken ['\\', e] := by
  intro done before
  have hu : e ≠ 'u' := by
    rintro rfl
    cases h
  simp [scanFrom_cons, step, textStep, hu, h]

theorem taken_char {c : Char} (h : ¬ (c = '"' ∨ c = '\\' ∨ c.toNat < 0x20)) : Taken [c] := by
  intro done before
  obtain ⟨hq, hb, hc⟩ := by simpa only [not_or] using h
  simp [scanFrom_cons, step, textStep, hq, hb, hc]

/-- What stands for a text is taken as one. -/
theorem taken_of_unquote? {written text : List Char} (h : unquote? written = some text) :
    Taken written := by
  induction written using unquote?.induct generalizing text with
  | case1 => exact fun _ _ => rfl
  | case2 a b c d rest ih ih' =>
    simp only [unquote?] at h
    obtain ⟨n, hn, h⟩ := Option.bind_eq_some_iff.1 h
    obtain ⟨unit, -, h⟩ := Option.bind_eq_some_iff.1 h
    cases unit with
    | inl x =>
      obtain ⟨rest', hrest, -⟩ := Option.bind_eq_some_iff.1 h
      exact (taken_unit hn).append (ih hrest)
    | inr high =>
      dsimp only at h
      split at h
      · obtain ⟨low, hlow, h⟩ := Option.bind_eq_some_iff.1 h
        obtain ⟨x, -, h⟩ := Option.bind_eq_some_iff.1 h
        obtain ⟨rest', hrest, -⟩ := Option.bind_eq_some_iff.1 h
        exact (taken_unit hn).append ((taken_unit hlow).append (ih' hrest))
      · cases h
  | case3 e rest hne ih =>
    simp only [unquote?] at h
    obtain ⟨x, hx, h⟩ := Option.bind_eq_some_iff.1 h
    obtain ⟨rest', hrest, -⟩ := Option.bind_eq_some_iff.1 h
    exact (taken_escape hx).append (ih hrest)
  | case4 c rest hunit hescape hc ih =>
    rw [unquote?, if_pos hc] at h
    · cases h
    · exact hunit
    · exact hescape
  | case5 c rest hunit hescape hc ih =>
    rw [unquote?, if_neg hc] at h
    · obtain ⟨rest', hrest, -⟩ := Option.bind_eq_some_iff.1 h
      exact (taken_char hc).append (ih hrest)
    · exact hunit
    · exact hescape

/-- A text between its quotes. -/
theorem Taken.scanFrom_text {written : List Char} (h : Taken written) (done : List Token)
    (rest : List Char) :
    scanFrom ⟨done, .between⟩ ('"' :: written ++ '"' :: rest) =
      scanFrom ⟨.text written :: done, .between⟩ rest := by
  have hopen : step ⟨done, .between⟩ '"' = some ⟨done, .text [] none⟩ := rfl
  have hclose : step ⟨done, .text (written.reverse ++ []) none⟩ '"' =
      some ⟨.text written :: done, .between⟩ := by
    simp [step, textStep]
  rw [List.cons_append, scanFrom_cons, hopen, Option.bind_some, scanFrom_append, h,
    Option.bind_some, scanFrom_cons, hclose, Option.bind_some]

end AdLedger.Json.Token
