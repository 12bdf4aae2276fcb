import AdLedger.Proofs.Time.Platform
import Mathlib.Tactic.ByContra

/-!
# The order of instants and that of their words

Words of 64 bits are in the order of the microseconds that they count. That is not always the order
of the instants: what is finer than a microsecond is left out, and a leap second is counted into the
second that follows it. Two bounds have the same whole instants between them in both orders if and
only if they are `Sharp`.
-/

namespace AdLedger.Time.Instant

variable {start finish t c : Instant}

theorem toPlatform_le_toPlatform_iff {a b : Instant} :
    a.toPlatform ≤ b.toPlatform ↔ a.micros ≤ b.micros := by
  rw [Int64.le_iff_toInt_le, toInt_toPlatform, toInt_toPlatform, Int.add_le_add_iff_right]

/-! ## Microseconds that are kept -/

/-- In the leap second that ends the last year. No second follows it. -/
def AtEnd (t : Instant) : Prop := t.second = lastSecond ∧ t.InLeapSecond

theorem micros_truncate (t : Instant) : t.truncate.micros = t.micros := by
  simp only [micros, truncate]
  omega

/-- So many microseconds into the second that follows an instant's. -/
def intoNext (t : Instant) (h : t.second < lastSecond) (n : Nat) (hn : n < 1000000) : Instant where
  second := t.second + 1
  nano := n * 1000
  firstSecond_le := by have := t.firstSecond_le; omega
  le_lastSecond := h
  nano_lt := by omega

theorem whole_intoNext (h : t.second < lastSecond) {n : Nat} (hn : n < 1000000) :
    (t.intoNext h n hn).Whole := by
  simp only [Whole, InLeapSecond, intoNext]
  omega

/-- What a leap second is read as. -/
def ofLeap (t : Instant) (h : t.second < lastSecond) : Instant :=
  t.intoNext h ((t.nano - 1000000000) / 1000) (by have := t.nano_lt; omega)

theorem micros_ofLeap (h : t.second < lastSecond) (hleap : t.InLeapSecond) :
    (t.ofLeap h).micros = t.micros := by
  simp only [InLeapSecond] at hleap
  simp only [micros, ofLeap, intoNext]
  omega

theorem second_lt_of_not_atEnd (h : ¬ t.AtEnd) (hleap : t.InLeapSecond) :
    t.second < lastSecond :=
  Int.lt_iff_le_and_ne.2 ⟨t.le_lastSecond, fun he => h ⟨he, hleap⟩⟩

/-- What an instant is read as after it is stored counts as many microseconds. -/
theorem micros_ofPlatform_toPlatform (h : ¬ t.AtEnd) :
    (ofPlatform t.toPlatform).micros = t.micros := by
  by_cases hleap : t.InLeapSecond
  · have hlt := second_lt_of_not_atEnd h hleap
    have hnano : t.nano - 1000000000 - t.nano % 1000 = (t.ofLeap hlt).nano := by
      simp only [ofLeap, intoNext]
      omega
    have hparts : ofParts? (t.second + 1) (t.nano - 1000000000 - t.nano % 1000) =
        some (t.ofLeap hlt) := by
      rw [hnano]
      exact ofParts?_eq_some (t := t.ofLeap hlt)
    rw [ofPlatform_toPlatform_of_leap hleap, hparts, Option.getD_some, micros_ofLeap hlt hleap]
  · rw [ofPlatform_toPlatform_of_not_leap hleap, micros_truncate]

theorem ofPlatform_toPlatform_of_atEnd (h : t.AtEnd) : ofPlatform t.toPlatform = epoch := by
  have hparts : ofParts? (t.second + 1) (t.nano - 1000000000 - t.nano % 1000) = none := by
    rw [ofParts?, dif_neg fun hp => ?_]
    have hlast := hp.2.1
    rw [h.1] at hlast
    exact absurd hlast (by decide)
  rw [ofPlatform_toPlatform_of_leap h.2, hparts, Option.getD_none]

/-- What an instant is read as is stored as the same word, unless it is at the end. -/
theorem toPlatform_ofPlatform_toPlatform_iff :
    (ofPlatform t.toPlatform).toPlatform = t.toPlatform ↔ ¬ t.AtEnd := by
  constructor
  · intro h hend
    rw [ofPlatform_toPlatform_of_atEnd hend, ← Int64.toInt_inj, toInt_toPlatform,
      toInt_toPlatform] at h
    have hsecond := hend.1
    simp only [micros, hsecond, lastSecond, epoch] at h
    omega
  · intro h
    rw [← Int64.toInt_inj, toInt_toPlatform, toInt_toPlatform, micros_ofPlatform_toPlatform h]

/-! ## Bounds -/

def Between (start finish c : Instant) : Prop := start ≤ c ∧ c ≤ finish

instance (start finish : Instant) : DecidablePred (Between start finish) :=
  fun _ => inferInstanceAs (Decidable (_ ∧ _))

/-- Between two instants in whole microseconds. -/
def MicrosBetween (start finish c : Instant) : Prop :=
  start.micros ≤ c.micros ∧ c.micros ≤ finish.micros

/-- The same whole instants are between two bounds in microseconds and in the order of instants. -/
def CountedAlike (start finish : Instant) : Prop :=
  ∀ c : Instant, c.Whole → (MicrosBetween start finish c ↔ Between start finish c)

/-- Counting in microseconds moves neither end past a whole instant: the start is whole or in the
first microsecond of a leap second, and the finish is in no leap second. The leap second that ends
the last year does no harm, as no second follows it. -/
structure Sharp (start finish : Instant) : Prop where
  start_whole : ¬ start.InLeapSecond → start.nano % 1000 = 0
  start_leap : start.nano < 1000001000 ∨ start.second = lastSecond
  finish_leap : finish.InLeapSecond → finish.second = lastSecond

theorem Sharp.start_le_iff (h : Sharp start finish) (hc : c.Whole) :
    start ≤ c ↔ start.micros ≤ c.micros := by
  obtain ⟨hwhole, hleap, -⟩ := h
  obtain ⟨hrest, hnano⟩ := hc
  have hlast := c.le_lastSecond
  have hlt := start.nano_lt
  simp only [InLeapSecond] at hwhole hleap hnano
  simp only [le_def, micros]
  omega

theorem Sharp.le_finish_iff (h : Sharp start finish) (hc : c.Whole) :
    c ≤ finish ↔ c.micros ≤ finish.micros := by
  have hleap := h.finish_leap
  obtain ⟨hrest, hnano⟩ := hc
  have hlast := c.le_lastSecond
  have hlt := finish.nano_lt
  simp only [InLeapSecond] at hleap hnano
  simp only [le_def, micros]
  omega

/-- The microseconds of instants are in the order of the instants, unless only the earlier one is in
a leap second. -/
theorem micros_le_micros {a b : Instant} (hle : a ≤ b)
    (hleap : a.InLeapSecond → b.InLeapSecond) : a.micros ≤ b.micros := by
  have hlt := a.nano_lt
  simp only [InLeapSecond] at hleap
  simp only [le_def] at hle
  simp only [micros]
  omega

/-- The last instant that is counted with a finish in a leap second comes after the finish. -/
theorem CountedAlike.finish_leap (h : CountedAlike start finish) (hle : start ≤ finish)
    (hleap : finish.InLeapSecond) : finish.second = lastSecond := by
  by_contra hne
  have hlt : finish.second < lastSecond := Int.lt_iff_le_and_ne.2 ⟨finish.le_lastSecond, hne⟩
  have hmicros := micros_ofLeap hlt hleap
  have hcounted : MicrosBetween start finish (finish.ofLeap hlt) := by
    rw [MicrosBetween, hmicros]
    exact ⟨micros_le_micros hle fun _ => hleap, Int.le_refl _⟩
  have hafter := ((h _ (whole_intoNext hlt _)).1 hcounted).2
  simp only [le_def, intoNext] at hafter
  omega

/-- A start between two microseconds comes after the instant that is counted with it. -/
theorem CountedAlike.start_whole (h : CountedAlike start finish) (hle : start ≤ finish)
    (hleap : ¬ start.InLeapSecond) : start.nano % 1000 = 0 := by
  have hwhole : start.truncate.Whole := by
    simp only [Whole, InLeapSecond, truncate] at hleap ⊢
    omega
  have hcounted : MicrosBetween start finish start.truncate := by
    rw [MicrosBetween, micros_truncate]
    exact ⟨Int.le_refl _, micros_le_micros hle fun hstart => absurd hstart hleap⟩
  have hbefore := ((h _ hwhole).1 hcounted).1
  simp only [le_def, truncate] at hbefore
  omega

/-- The second that follows a start in a leap second begins before the instants that are counted
with the start. -/
theorem CountedAlike.start_leap (h : CountedAlike start finish) (hle : start ≤ finish) :
    start.nano < 1000001000 ∨ start.second = lastSecond := by
  by_contra! hlate
  obtain ⟨hlate, hne⟩ := hlate
  have hlt : start.second < lastSecond := Int.lt_iff_le_and_ne.2 ⟨start.le_lastSecond, hne⟩
  have hfinish := h.finish_leap hle
  have hbetween : Between start finish (start.intoNext hlt 0 (by decide)) := by
    simp only [InLeapSecond] at hfinish
    simp only [le_def] at hle
    simp only [Between, le_def, intoNext]
    omega
  have hmicros := ((h _ (whole_intoNext hlt _)).2 hbetween).1
  simp only [micros, intoNext] at hmicros
  omega

theorem countedAlike_iff_sharp (hle : start ≤ finish) :
    CountedAlike start finish ↔ Sharp start finish := by
  constructor
  · intro h
    exact ⟨h.start_whole hle, h.start_leap hle, h.finish_leap hle⟩
  · intro h c hc
    exact (and_congr (h.start_le_iff hc) (h.le_finish_iff hc)).symm

end AdLedger.Time.Instant
