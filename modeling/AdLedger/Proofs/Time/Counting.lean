import AdLedger.Proofs.Time.Order

/-!
# Counting microseconds from 1601

The word of an instant is a count of time: the nanoseconds from the start of 1601 to its date and
its time of day, in whole microseconds (`Counted`). A word that counts up to an instant is read as
that instant, and any other word as the start of 1970 (`ReadBack`). Whole instants are in the order
of their words, so that to sort the words is to sort the instants. Going back a number of days takes
so much time away, as far as the first year reaches.
-/

namespace AdLedger.Time.Instant

variable {a b t : Instant} {v : Int64} {days : Nat}

/-- Nanoseconds from the start of 1601 to an instant, by its date and its time of day. In a leap
second they go on from the second that it follows. -/
def nanosFrom1601 (t : Instant) : Int :=
  ((t.date.toDays - Date.toDays ⟨1601, 1, 1⟩) * daySeconds + t.secondOfDay) * 1000000000 + t.nano

theorem nanosFrom1601_eq (t : Instant) :
    t.nanosFrom1601 = (t.second * 1000000 + platformShift) * 1000 + t.nano := by
  have hstart : Date.toDays ⟨1601, 1, 1⟩ = -134774 := by decide
  simp only [nanosFrom1601, date, Date.toDays_ofDays, hstart, secondOfDay, daySeconds,
    platformShift]
  omega

/-- The word of an instant counts the microseconds from the start of 1601, rounded towards the past.
The sum that it is made from fits into the word, and a leap second is counted into the second that
follows it. -/
structure Counted (t : Instant) : Prop where
  fits : Int64.minValue.toInt ≤ t.micros + platformShift ∧
    t.micros + platformShift ≤ Int64.maxValue.toInt
  word : t.toPlatform.toInt = t.nanosFrom1601.fdiv 1000
  leap : t.InLeapSecond → ∀ next : Instant, next.second = t.second + 1 →
    next.nano = t.nano - 1000000000 → t.toPlatform = next.toPlatform

theorem counted (t : Instant) : Counted t where
  fits := by
    obtain ⟨hmin, hmax⟩ := t.micros_bounds
    have hshift : (0 : Int) ≤ platformShift := by decide
    exact ⟨by omega, hmax⟩
  word := by
    rw [toInt_toPlatform, nanosFrom1601_eq, Int.fdiv_eq_ediv_of_nonneg _ (by decide), micros]
    omega
  leap hleap next hsecond hnano := by
    simp only [InLeapSecond] at hleap
    rw [← Int64.toInt_inj, toInt_toPlatform, toInt_toPlatform, micros, micros, hsecond, hnano]
    omega

/-! ## Reading words -/

/-- A word counts the microseconds up to an instant that is in no leap second. -/
def Denotes (v : Int64) (t : Instant) : Prop :=
  ¬ t.InLeapSecond ∧ t.nanosFrom1601 = 1000 * v.toInt

theorem denotes_iff : Denotes v t ↔ t.Whole ∧ t.toPlatform = v := by
  have hnano := t.nano_lt
  simp only [Denotes, Whole, nanosFrom1601_eq, ← Int64.toInt_inj, toInt_toPlatform, micros,
    InLeapSecond]
  omega

/-- A word denotes what it is read as, if it denotes anything. -/
theorem Denotes.ofPlatform_eq (h : Denotes v t) : ofPlatform v = t := by
  obtain ⟨hwhole, rfl⟩ := denotes_iff.1 h
  exact ofPlatform_toPlatform_eq_self_iff.2 hwhole

/-- The words that denote instants are those within the first and the last year. -/
theorem exists_denotes_iff : (∃ t, Denotes v t) ↔
    firstSecond * 1000000 ≤ v.toInt - platformShift ∧
      v.toInt - platformShift < (lastSecond + 1) * 1000000 := by
  constructor
  · rintro ⟨t, hleap, hcount⟩
    have hfirst := t.firstSecond_le
    have hlast := t.le_lastSecond
    rw [nanosFrom1601_eq] at hcount
    simp only [InLeapSecond] at hleap
    omega
  · rintro ⟨hfirst, hlast⟩
    have hnano : ((v.toInt - platformShift) % 1000000).toNat < 1000000 := by omega
    refine ⟨⟨(v.toInt - platformShift) / 1000000,
      ((v.toInt - platformShift) % 1000000).toNat * 1000, by omega, by omega, by omega⟩,
      ?_, ?_⟩
    · show ¬ 1000000000 ≤ ((v.toInt - platformShift) % 1000000).toNat * 1000
      omega
    · rw [nanosFrom1601_eq]
      show ((v.toInt - platformShift) / 1000000 * 1000000 + platformShift) * 1000 +
        (((v.toInt - platformShift) % 1000000).toNat * 1000 : Nat) = 1000 * v.toInt
      omega

theorem toInt_clamp_eq (n : Int) :
    (clamp n).toInt = max Int64.minValue.toInt (min Int64.maxValue.toInt n) := by
  have hle : Int64.minValue.toInt ≤ Int64.maxValue.toInt := by decide
  exact Int64.toInt_ofInt_of_le (Int.le_max_left _ _)
    (Int.lt_add_one_of_le (Int.max_le.2 ⟨hle, Int.min_le_left _ _⟩))

/-- A word that denotes nothing is read as the start of 1970. Where the shift is cut off at the
least word, what is left is far before the first year. -/
theorem ofPlatform_of_not_denotes (h : ¬ ∃ t, Denotes v t) : ofPlatform v = epoch := by
  have hmin : Int64.minValue.toInt = -9223372036854775808 := rfl
  have hmax : Int64.maxValue.toInt = 9223372036854775807 := rfl
  have hle : v.toInt ≤ Int64.maxValue.toInt := v.toInt_le
  rw [exists_denotes_iff] at h
  have hnone : ofMicros? (clamp (v.toInt - platformShift)).toInt = none := by
    rw [toInt_clamp_eq, ofMicros?, ofParts?, dif_neg]
    simp only [firstSecond, lastSecond, platformShift] at h ⊢
    omega
  rw [ofPlatform, hnone, Option.getD_none]

/-- A word is read as the instant that it denotes, and written for it again; one that denotes none,
as where it is too small to be read at all, is read as the start of 1970. -/
structure ReadBack (v : Int64) : Prop where
  denotes_iff : (∃ t, Denotes v t) ↔ firstSecond * 1000000 ≤ v.toInt - platformShift ∧
    v.toInt - platformShift < (lastSecond + 1) * 1000000
  denoted : ∀ t, Denotes v t → ofPlatform v = t ∧ (ofPlatform v).toPlatform = v
  other : (¬ ∃ t, Denotes v t) →
    ofPlatform v = epoch ∧ (ofPlatform v).toPlatform = epoch.toPlatform
  small : v.toInt - platformShift < Int64.minValue.toInt → ¬ ∃ t, Denotes v t

theorem readBack (v : Int64) : ReadBack v where
  denotes_iff := exists_denotes_iff
  denoted t h := by
    rw [h.ofPlatform_eq]
    exact ⟨rfl, (Instant.denotes_iff.1 h).2⟩
  other h := by
    rw [ofPlatform_of_not_denotes h]
    exact ⟨rfl, rfl⟩
  small h := by
    have hmin : Int64.minValue.toInt = -9223372036854775808 := rfl
    rw [exists_denotes_iff]
    simp only [firstSecond, platformShift] at h ⊢
    omega

/-! ## The order of whole instants -/

theorem le_iff_micros_le (ha : a.Whole) (hb : b.Whole) : a ≤ b ↔ a.micros ≤ b.micros := by
  obtain ⟨harest, hanano⟩ := ha
  obtain ⟨hbrest, hbnano⟩ := hb
  simp only [InLeapSecond] at hanano hbnano
  simp only [le_def, micros]
  omega

theorem le_iff_toPlatform_le (ha : a.Whole) (hb : b.Whole) :
    a ≤ b ↔ a.toPlatform ≤ b.toPlatform := by
  rw [le_iff_micros_le ha hb, toPlatform_le_toPlatform_iff]

theorem lt_iff_toPlatform_lt (ha : a.Whole) (hb : b.Whole) :
    a ≤ b ∧ a ≠ b ↔ a.toPlatform < b.toPlatform := by
  have hne : a ≠ b ↔ a.toPlatform ≠ b.toPlatform := by
    refine not_congr ⟨congrArg toPlatform, fun he => ?_⟩
    rw [← ofPlatform_toPlatform_eq_self_iff.2 ha, he, ofPlatform_toPlatform_eq_self_iff.2 hb]
  rw [le_iff_toPlatform_le ha hb, hne, Int64.lt_iff_le_and_ne]

/-- Instants are sorted as their words are. -/
structure SortedAlike (ts : List Instant) : Prop where
  oldestFirst : (ts.mergeSort fun a b => decide (a ≤ b)).map toPlatform =
    (ts.map toPlatform).mergeSort fun v w => decide (v ≤ w)
  newestFirst : (ts.mergeSort fun a b => decide (b ≤ a)).map toPlatform =
    (ts.map toPlatform).mergeSort fun v w => decide (w ≤ v)

theorem sortedAlike {ts : List Instant} (h : ∀ t ∈ ts, t.Whole) : SortedAlike ts where
  oldestFirst := List.map_mergeSort fun a ha b hb =>
    decide_eq_decide.2 (le_iff_toPlatform_le (h a ha) (h b hb))
  newestFirst := List.map_mergeSort fun a ha b hb =>
    decide_eq_decide.2 (le_iff_toPlatform_le (h b hb) (h a ha))

/-- The word of an instant counts the whole microseconds from the start of 1601, and never more than
fits into it. Each word is read back as the instant that it denotes, or as the start of 1970 if it
denotes none. Outside leap seconds what an instant is read back as lacks only the part finer than a
microsecond, and instants without such a part are in the order of their words. -/
theorem words_count_microseconds :
    (∀ t : Instant, Counted t) ∧
    (∀ v : Int64, ReadBack v) ∧
    (∀ t : Instant, ¬ t.InLeapSecond → ofPlatform t.toPlatform = t.truncate) ∧
    (∀ a b : Instant, a.Whole → b.Whole → (a ≤ b ∧ a ≠ b ↔ a.toPlatform < b.toPlatform)) ∧
    ∀ ts : List Instant, (∀ t ∈ ts, t.Whole) → SortedAlike ts :=
  ⟨counted, readBack, fun _ => ofPlatform_toPlatform_of_not_leap,
    fun _ _ => lt_iff_toPlatform_lt, fun _ => sortedAlike⟩

/-- The leap second of June 1972 is counted into July, the least word is too small to be read, and
the instant 1.5 microseconds after the epoch loses half of one. The epoch sorts before the
microsecond after it. -/
theorem epoch_words_count_microseconds :
    ((ofParts? 78796799 1500000000).getD epoch).toPlatform =
      ((ofParts? 78796800 500000000).getD epoch).toPlatform ∧
    (ofPlatform Int64.minValue).toPlatform = epoch.toPlatform ∧
    ofPlatform ((ofParts? 0 1500).getD epoch).toPlatform = (ofParts? 0 1000).getD epoch ∧
    epoch.toPlatform < ((ofParts? 0 1000).getD epoch).toPlatform ∧
    ([(ofParts? 0 1000).getD epoch, epoch].mergeSort fun a b => decide (a ≤ b)).map toPlatform =
      ([(ofParts? 0 1000).getD epoch, epoch].map toPlatform).mergeSort
        fun v w => decide (v ≤ w) := by
  obtain ⟨hcounted, hread, htruncate, hlt, hsorted⟩ := words_count_microseconds
  have hsmall := (hread Int64.minValue).small (by decide)
  have hepoch : epoch.Whole := ⟨rfl, by decide⟩
  have hnext : ((ofParts? 0 1000).getD epoch).Whole := ⟨rfl, by decide⟩
  refine ⟨(hcounted _).leap (by decide) _ (by decide) (by decide), ((hread _).other hsmall).2,
    (htruncate _ (by decide)).trans (by decide), (hlt _ _ hepoch hnext).1 (by decide),
    (hsorted _ fun t ht => ?_).oldestFirst⟩
  obtain rfl | ht := List.mem_cons.1 ht
  · exact hnext
  · exact List.mem_singleton.1 ht ▸ hepoch

/-! ## Days before -/

theorem ofParts?_eq_none_iff {second : Int} {nano : Nat} : ofParts? second nano = none ↔
    ¬ (firstSecond ≤ second ∧ second ≤ lastSecond ∧ nano < 2000000000) := by
  simp only [ofParts?, dite_eq_right_iff, reduceCtorEq, imp_false]

/-- Counting back by days gets nowhere only where it leads to before the first year. -/
theorem daysBefore?_eq_none_iff :
    t.daysBefore? days = none ↔ t.micros - days * 86400000000 < firstSecond * 1000000 := by
  have hfirst := t.firstSecond_le
  have hlast := t.le_lastSecond
  have hnano := t.nano_lt
  by_cases hzero : days = 0
  · rw [daysBefore?, if_pos hzero]
    simp only [reduceCtorEq, micros, false_iff]
    omega
  · rw [daysBefore?, if_neg hzero]
    by_cases hin : t.InLeapSecond
    · rw [if_pos hin, ofParts?_eq_none_iff]
      simp only [InLeapSecond] at hin
      simp only [daySeconds, micros]
      omega
    · rw [if_neg hin, ofParts?_eq_none_iff]
      simp only [InLeapSecond] at hin
      simp only [daySeconds, micros]
      omega

/-- Counting back by days takes their nanoseconds away, in a leap second too. -/
theorem nanosFrom1601_of_daysBefore? {start : Instant} (h : t.daysBefore? days = some start) :
    start.nanosFrom1601 = t.nanosFrom1601 - days * 86400000000000 := by
  by_cases hzero : days = 0
  · rw [daysBefore?, if_pos hzero] at h
    obtain rfl := Option.some.inj h
    omega
  · rw [daysBefore?, if_neg hzero] at h
    by_cases hin : t.InLeapSecond
    · rw [if_pos hin] at h
      obtain ⟨hsecond, hnano⟩ := parts_of_ofParts? h
      simp only [InLeapSecond] at hin
      rw [nanosFrom1601_eq, nanosFrom1601_eq, hsecond, hnano, daySeconds]
      omega
    · rw [if_neg hin] at h
      obtain ⟨hsecond, hnano⟩ := parts_of_ofParts? h
      rw [nanosFrom1601_eq, nanosFrom1601_eq, hsecond, hnano, daySeconds]
      omega

theorem micros_of_daysBefore? {start : Instant} (h : t.daysBefore? days = some start) :
    start.micros = t.micros - days * 86400000000 := by
  have hnanos := nanosFrom1601_of_daysBefore? h
  rw [nanosFrom1601_eq, nanosFrom1601_eq] at hnanos
  simp only [micros]
  omega

/-- Counting back by days gets somewhere just where there is an instant so many days earlier. -/
theorem exists_daysBefore?_iff : (∃ start, t.daysBefore? days = some start) ↔
    ∃ start : Instant, start.nanosFrom1601 = t.nanosFrom1601 - days * 86400000000000 := by
  constructor
  · rintro ⟨start, h⟩
    exact ⟨start, nanosFrom1601_of_daysBefore? h⟩
  · rintro ⟨start, h⟩
    have hfirst := start.firstSecond_le
    rw [nanosFrom1601_eq, nanosFrom1601_eq] at h
    rw [← Option.ne_none_iff_exists', ne_eq, daysBefore?_eq_none_iff]
    simp only [micros]
    omega

theorem le_of_daysBefore? {start : Instant} (h : t.daysBefore? days = some start) : start ≤ t := by
  by_cases hzero : days = 0
  · rw [daysBefore?, if_pos hzero] at h
    obtain rfl := Option.some.inj h
    exact .inr ⟨rfl, Nat.le_refl _⟩
  · have hmicros := micros_of_daysBefore? h
    have hnano := t.nano_lt
    refine .inl ?_
    simp only [micros] at hmicros
    omega

end AdLedger.Time.Instant
