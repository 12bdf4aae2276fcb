import AdLedger.Proofs.Text.Digits
import AdLedger.Time.Printer
import AdLedger.Time.Reader

/-!
# Instants through their texts

What is read from the text of an instant, in any year, with any fraction, and in a leap second: the
instant itself, but for a leap second that ends no minute, which is written like the second after it
(`Instant.writtenAs`). Each part of the text is taken by the scan that is meant for it, and the next
part is left (`Scan.date_text`, `Scan.clock_text`, `Scan.fraction_text`), since what follows a
number is never a digit.
-/

namespace AdLedger.Time

open Text

namespace Scan

variable {α β : Type} {s rest : List Char} {c : Char}

theorem bind_eq {m : Scan α} {f : α → Scan β} {a : α} (h : m s = some (a, rest)) :
    (m >>= f) s = f a rest := by
  simp [bind, StateT.bind, h]

theorem isBlank_of_isDigit (h : c.isDigit = true) : isBlank c = false := by
  have hlow : 48 ≤ c.toNat := by
    have := (Bool.and_eq_true_iff.1 h).1
    exact of_decide_eq_true this
  have hhigh : c.toNat ≤ 57 := of_decide_eq_true (Bool.and_eq_true_iff.1 h).2
  simp only [isBlank, Bool.or_eq_false_iff, Bool.and_eq_false_iff, decide_eq_false_iff_not,
    beq_eq_false_iff_ne]
  omega

theorem blanks_cons (h : isBlank c = false) : blanks (c :: rest) = some ((), c :: rest) := by
  have hskip : skipBlank (c :: rest) = c :: rest := List.dropWhile_cons_of_neg (by simp [h])
  show some ((), skipBlank (c :: rest)) = _
  rw [hskip]

theorem blanks_append {run : List Char} (hne : run ≠ []) (hd : ∀ d ∈ run, d.isDigit = true) :
    blanks (run ++ rest) = some ((), run ++ rest) := by
  obtain ⟨d, run, rfl⟩ := List.exists_cons_of_ne_nil hne
  exact blanks_cons (isBlank_of_isDigit (hd d List.mem_cons_self))

theorem next_cons (c : Char) (rest : List Char) : next (c :: rest) = some (c, rest) := rfl

theorem mark_cons : mark c (c :: rest) = some ((), rest) := by
  rw [mark, bind_eq (next_cons c rest), if_pos rfl]
  rfl

/-- A run of digits is taken up to what is no digit. -/
theorem digits_append {most : Nat} {run : List Char} (hne : run ≠ [])
    (hd : ∀ d ∈ run, d.isDigit = true) (hlen : run.length ≤ most) (hc : c.isDigit = false) :
    digits most (run ++ c :: rest) = some (run, c :: rest) := by
  have hend : ((c :: rest).take (most - run.length)).takeWhile Char.isDigit = [] := by
    cases most - run.length with
    | zero => rfl
    | succ n => exact List.takeWhile_cons_of_neg (by simp [hc])
  have hrun : ((run ++ c :: rest).take most).takeWhile Char.isDigit = run := by
    rw [List.take_append, List.take_of_length_le hlen, List.takeWhile_append_of_pos hd, hend,
      List.append_nil]
  simp only [digits, hrun, List.isEmpty_iff, hne, if_false, List.drop_left]

/-- Two digits are taken as the number that they are of. -/
theorem number_padded {greatest n : Nat} (hn : n ≤ greatest) (h100 : n < 100)
    (hc : c.isDigit = false) :
    number greatest (padded 2 n ++ c :: rest) = some (n, c :: rest) := by
  have hd : ∀ d ∈ padded 2 n, d.isDigit = true := fun _ => isDigit_of_mem_padded
  have hlen : (padded 2 n).length ≤ 2 := Nat.le_of_eq (length_padded (by decide) h100)
  rw [number, bind_eq (blanks_append (padded_ne_nil 2 n) hd),
    bind_eq (digits_append (padded_ne_nil 2 n) hd hlen hc), ofDigits_padded, if_pos hn]
  rfl

theorem get_eq : (get : Scan (List Char)) s = some (s, s) := rfl

/-- A year without a sign has four digits. -/
theorem year_digits {run : List Char} (hne : run ≠ []) (hd : ∀ d ∈ run, d.isDigit = true)
    (hlen : run.length ≤ 4) (hc : c.isDigit = false) :
    year (run ++ c :: rest) = some ((ofDigits run : Int), c :: rest) := by
  have hdigits : digits 4 (run ++ c :: rest) = some (run, c :: rest) :=
    digits_append hne hd hlen hc
  rw [year, bind_eq (blanks_append hne hd), bind_eq get_eq]
  obtain ⟨d, run, rfl⟩ := List.exists_cons_of_ne_nil hne
  have hdigit := hd d List.mem_cons_self
  have hscan : ∀ m : Scan Int, m = (do return ofDigits (← digits 4)) →
      m (d :: run ++ c :: rest) = some ((ofDigits (d :: run) : Int), c :: rest) := by
    rintro m rfl
    rw [bind_eq hdigits]
    rfl
  refine hscan _ ?_
  split
  next heq =>
    obtain ⟨rfl, -⟩ := List.cons.inj heq
    cases hdigit
  next heq =>
    obtain ⟨rfl, -⟩ := List.cons.inj heq
    cases hdigit
  next => rfl

/-- A year with a sign has as many digits as there are. -/
theorem year_signed {run : List Char} (hne : run ≠ []) (hd : ∀ d ∈ run, d.isDigit = true)
    (hc : c.isDigit = false) (rest : List Char) :
    year ('-' :: run ++ c :: rest) = some (-(ofDigits run : Int), c :: rest) ∧
      year ('+' :: run ++ c :: rest) = some ((ofDigits run : Int), c :: rest) := by
  have hlen : run.length ≤ (run ++ c :: rest).length := by simp
  have hdigits : digits _ (run ++ c :: rest) = some (run, c :: rest) :=
    digits_append hne hd hlen hc
  constructor
  · rw [List.cons_append, year, bind_eq (blanks_cons (by decide)), bind_eq get_eq]
    simp only
    rw [bind_eq rfl, bind_eq hdigits]
    rfl
  · rw [List.cons_append, year, bind_eq (blanks_cons (by decide)), bind_eq get_eq]
    simp only
    rw [bind_eq rfl, bind_eq hdigits]
    rfl

theorem year_text {y : Int} (hc : c.isDigit = false) :
    year (yearText y ++ c :: rest) = some (y, c :: rest) := by
  have hd (n : Nat) : ∀ d ∈ padded 4 n, d.isDigit = true := fun _ => isDigit_of_mem_padded
  have hne (n : Nat) := padded_ne_nil 4 n
  unfold yearText
  split
  next h =>
    have h4 : y.toNat < Nat.pow 10 4 := by
      show y.toNat < 10000
      omega
    have hlen := Nat.le_of_eq (length_padded (by decide) h4)
    rw [year_digits (hne _) (hd _) hlen hc, ofDigits_padded, Int.toNat_of_nonneg h.1]
  next h =>
    obtain ⟨hminus, hplus⟩ := year_signed (hne y.natAbs) (hd y.natAbs) hc rest
    rw [ofDigits_padded] at hminus hplus
    split
    next hneg =>
      have hvalue : -(y.natAbs : Int) = y := by omega
      rw [hminus, hvalue]
    next hpos =>
      have hvalue : (y.natAbs : Int) = y := by omega
      rw [hplus, hvalue]

theorem date_text {d : Date} (h : d.Valid) (hc : c.isDigit = false) (rest : List Char) :
    date (d.text ++ c :: rest) = some (d, c :: rest) := by
  obtain ⟨year, month, day⟩ := d
  have hmonth : month ≤ 12 := h.2.1
  have hday : day ≤ 31 := by
    have hmost : day ≤ daysInMonth year month := h.2.2.2
    unfold daysInMonth at hmost
    split at hmost <;> split at hmost <;> omega
  have hmark : '-'.isDigit = false := by decide
  have hblank : isBlank '-' = false := by decide
  simp only [Date.text, List.append_assoc, List.cons_append]
  rw [date, bind_eq (year_text hmark), bind_eq (blanks_cons hblank), bind_eq mark_cons,
    bind_eq (number_padded hmonth (by omega) hmark), bind_eq (blanks_cons hblank),
    bind_eq mark_cons, bind_eq (number_padded hday (by omega) hc), if_pos h]
  rfl

/-- A fraction written with some digits. -/
theorem fraction_padded {width n : Nat} (pos : 0 < width) (h9 : width ≤ 9)
    (hn : n < Nat.pow 10 width)
    (hc : c.isDigit = false) :
    fraction ('.' :: padded width n ++ c :: rest) =
      some (n * Nat.pow 10 (9 - width), c :: rest) := by
  have hlen := length_padded pos hn
  have hdigits : digits 9 (padded width n ++ c :: rest) = some (padded width n, c :: rest) :=
    digits_append (padded_ne_nil width n) (fun _ => isDigit_of_mem_padded) (by omega) hc
  have hdrop : (modify (·.dropWhile Char.isDigit) : Scan PUnit) (c :: rest) =
      some (⟨⟩, c :: rest) := by
    show some (PUnit.unit, (c :: rest).dropWhile Char.isDigit) = _
    rw [List.dropWhile_cons_of_neg (by simp [hc])]
  rw [List.cons_append, fraction, bind_eq get_eq]
  simp only
  rw [bind_eq rfl, bind_eq hdigits, bind_eq hdrop, ofDigits_padded, hlen]
  rfl

theorem fraction_absent (hp : c ≠ '.') : fraction (c :: rest) = some (0, c :: rest) := by
  have hscan : ∀ m : Scan Nat, m = pure 0 → m (c :: rest) = some (0, c :: rest) := by
    rintro m rfl
    rfl
  rw [fraction, bind_eq get_eq]
  refine hscan _ ?_
  split
  next heq => exact absurd (List.cons.inj heq).1 hp
  next => rfl

theorem fraction_text {n : Nat} (h : n < 1000000000) (hc : c.isDigit = false) (hp : c ≠ '.') :
    fraction (fractionText n ++ c :: rest) = some (n, c :: rest) := by
  unfold fractionText
  split
  next h0 => rw [h0, List.nil_append, fraction_absent hp]
  split
  next _ h6 =>
    have hlt : n / 1000000 < Nat.pow 10 3 := by
      show n / 1000000 < 1000
      omega
    have hvalue : n / 1000000 * Nat.pow 10 (9 - 3) = n :=
      Nat.div_mul_cancel (Nat.dvd_of_mod_eq_zero h6)
    rw [fraction_padded (by decide) (by decide) hlt hc, hvalue]
  split
  next _ _ h3 =>
    have hlt : n / 1000 < Nat.pow 10 6 := by
      show n / 1000 < 1000000
      omega
    have hvalue : n / 1000 * Nat.pow 10 (9 - 6) = n :=
      Nat.div_mul_cancel (Nat.dvd_of_mod_eq_zero h3)
    rw [fraction_padded (by decide) (by decide) hlt hc, hvalue]
  next =>
    have hvalue : n * Nat.pow 10 (9 - 9) = n := Nat.mul_one n
    rw [fraction_padded (by decide) (by decide) h hc, hvalue]

/-- Neither a fraction nor what follows it begins with a digit. -/
theorem exists_fractionText_append (n : Nat) (hc : c.isDigit = false) (rest : List Char) :
    ∃ d more, fractionText n ++ c :: rest = d :: more ∧ d.isDigit = false := by
  unfold fractionText
  split
  · exact ⟨c, rest, rfl, hc⟩
  split
  · exact ⟨'.', _, rfl, by decide⟩
  split
  · exact ⟨'.', _, rfl, by decide⟩
  · exact ⟨'.', _, rfl, by decide⟩

theorem secondOfDay_lt (t : Instant) : t.secondOfDay < 86400 := by
  simp only [Instant.secondOfDay, Instant.daySeconds]
  omega

/-- The time of day of an instant, with its fraction. -/
theorem clock_text {t : Instant} (ht : t.LeapEndsMinute) (hc : c.isDigit = false) (hp : c ≠ '.')
    (rest : List Char) :
    clock (t.clockText ++ (fractionText (t.nano % 1000000000) ++ c :: rest)) =
      some ((t.secondOfDay, t.nano), c :: rest) := by
  have hday := secondOfDay_lt t
  have hnano := t.nano_lt
  have hcolon : ':'.isDigit = false := by decide
  have hblank : isBlank ':' = false := by decide
  have hfraction : fraction (fractionText (t.nano % 1000000000) ++ c :: rest) =
      some (t.nano % 1000000000, c :: rest) :=
    fraction_text (Nat.mod_lt t.nano (by decide)) hc hp
  obtain ⟨d, more, htext, hd⟩ := exists_fractionText_append (t.nano % 1000000000) hc rest
  rw [htext] at hfraction ⊢
  simp only [Instant.clockText, List.append_assoc, List.cons_append]
  have hsplit : t.secondOfDay / 3600 * 3600 + t.secondOfDay / 60 % 60 * 60 +
      t.secondOfDay % 60 = t.secondOfDay := by omega
  rw [clock, bind_eq (number_padded (by omega) (by omega) hcolon), bind_eq (blanks_cons hblank),
    bind_eq mark_cons, bind_eq (number_padded (by omega) (by omega) hcolon),
    bind_eq (blanks_cons hblank), bind_eq mark_cons]
  by_cases hleap : t.InLeapSecond
  · have hlast : t.secondOfDay % 60 = 59 := by
      have := ht hleap
      simp only [Instant.secondOfDay, Instant.daySeconds]
      omega
    have hle : 1000000000 ≤ t.nano := hleap
    have hvalue : t.nano % 1000000000 + 1000000000 = t.nano := by omega
    rw [if_pos hleap, hlast, bind_eq (number_padded (by decide) (by decide) hd),
      bind_eq hfraction]
    have hsum : t.secondOfDay / 3600 * 3600 + t.secondOfDay / 60 % 60 * 60 + 59 =
        t.secondOfDay := by omega
    rw [if_pos rfl, hsum, hvalue]
    rfl
  · have hlt : t.nano < 1000000000 := Nat.lt_of_not_le hleap
    have hvalue : t.nano % 1000000000 = t.nano := Nat.mod_eq_of_lt hlt
    rw [if_neg hleap, bind_eq (number_padded (by omega) (by omega) hd), bind_eq hfraction]
    rw [if_neg (by omega), Nat.add_zero, hsplit, hvalue]
    rfl

theorem offset_zulu : offset ['Z'] = some (0, []) := by
  rw [offset, bind_eq get_eq]
  simp only
  rfl

end Scan

namespace Instant

variable {t : Instant}

/-- An instant is read from its text, unless it is in a leap second that ends no minute. -/
theorem read?_text_of_leapEndsMinute (h : t.LeapEndsMinute) : read? t.text = some t := by
  have hT : 'T'.isDigit = false := by decide
  have hZ : 'Z'.isDigit = false := by decide
  have hvalid : t.date.Valid := Date.ofDays_valid _
  have hdate := Scan.date_text hvalid hT
    (t.clockText ++ (fractionText (t.nano % 1000000000) ++ ['Z']))
  have hclock := Scan.clock_text h hZ (by decide) []
  have hdays : t.date.toDays * daySeconds + t.secondOfDay = t.second := by
    rw [date, Date.toDays_ofDays]
    simp only [secondOfDay, daySeconds]
    omega
  have hlist : t.text.toList =
      t.date.text ++ 'T' :: (t.clockText ++ (fractionText (t.nano % 1000000000) ++ ['Z'])) := by
    simp [text, write]
  have hscan : Scan.instant t.text.toList = some (t, []) := by
    rw [hlist, Scan.instant, Scan.bind_eq hdate, Scan.bind_eq rfl, if_neg (by decide)]
    dsimp only
    rw [Scan.bind_eq hclock]
    simp only
    rw [Scan.bind_eq (Scan.blanks_cons (by decide)), Scan.bind_eq Scan.offset_zulu, hdays,
      ofParts?_eq_some]
    simp only
    rw [Int.sub_zero, ofParts?_eq_some]
    rfl
  rw [read?, hscan]
  rfl

/-! ## Leap seconds that end no minute -/

/-- The instant that has the text of another one and is in no leap second, unless that ends its
minute. -/
def writtenAs (t : Instant) : Instant :=
  if h : t.LeapEndsMinute then t
  else
    { second := t.second + 1
      nano := t.nano - 1000000000
      firstSecond_le := by have := t.firstSecond_le; omega
      le_lastSecond := by
        have hlast : lastSecond % 60 = 59 := by decide
        have := t.le_lastSecond
        have := (Classical.not_imp.1 h).2
        omega
      nano_lt := by have := t.nano_lt; omega }

theorem writtenAs_of_leapEndsMinute (h : t.LeapEndsMinute) : t.writtenAs = t := dif_pos h

/-- The second after one that ends no minute is in the same minute of the same day. -/
theorem date_clockText_writtenAs (t : Instant) :
    t.writtenAs.date = t.date ∧ t.writtenAs.clockText = t.clockText ∧
      t.writtenAs.nano % 1000000000 = t.nano % 1000000000 := by
  by_cases h : t.LeapEndsMinute
  · rw [writtenAs_of_leapEndsMinute h]
    exact ⟨rfl, rfl, rfl⟩
  obtain ⟨hleap, hsecond⟩ := Classical.not_imp.1 h
  have hnano := t.nano_lt
  have hle : 1000000000 ≤ t.nano := hleap
  have hnext : (t.writtenAs).second = t.second + 1 ∧
      (t.writtenAs).nano = t.nano - 1000000000 := by
    simp only [writtenAs, h, dite_false, and_self]
  have hnot : ¬ (t.writtenAs).InLeapSecond := by
    simp only [InLeapSecond, hnext.2]
    omega
  have hday : (t.writtenAs).secondOfDay = t.secondOfDay + 1 := by
    simp only [secondOfDay, daySeconds, hnext.1]
    omega
  have hminute : t.secondOfDay % 60 ≠ 59 := by
    simp only [secondOfDay, daySeconds]
    omega
  refine ⟨?_, ?_, ?_⟩
  · simp only [date, daySeconds, hnext.1]
    congr 1
    omega
  · have hhour : (t.secondOfDay + 1) / 3600 = t.secondOfDay / 3600 := by omega
    have hin : (t.secondOfDay + 1) / 60 = t.secondOfDay / 60 := by omega
    have hsum : (t.secondOfDay + 1) % 60 = t.secondOfDay % 60 + 1 := by omega
    simp only [clockText, hday, hnot, hleap, if_true, if_false, hhour, hin, hsum, Nat.add_zero]
  · rw [hnext.2]
    omega

theorem text_writtenAs (t : Instant) : t.writtenAs.text = t.text := by
  obtain ⟨hdate, hclock, hnano⟩ := date_clockText_writtenAs t
  simp only [text, write, hdate, hclock, hnano]

theorem leapEndsMinute_writtenAs (t : Instant) : t.writtenAs.LeapEndsMinute := by
  by_cases h : t.LeapEndsMinute
  · rwa [writtenAs_of_leapEndsMinute h]
  · intro hleap
    have hnano := t.nano_lt
    simp only [InLeapSecond, writtenAs, h, dite_false] at hleap
    omega

theorem writtenAs_eq_self_iff : t.writtenAs = t ↔ t.LeapEndsMinute :=
  ⟨fun h => h ▸ leapEndsMinute_writtenAs t, writtenAs_of_leapEndsMinute⟩

/-- What is read from the text of an instant. -/
theorem read?_text (t : Instant) : read? t.text = some t.writtenAs := by
  rw [← text_writtenAs, read?_text_of_leapEndsMinute (leapEndsMinute_writtenAs t)]

end Instant

end AdLedger.Time
