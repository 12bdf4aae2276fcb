import AdLedger.Observer.Event
import AdLedger.Observer.Registry
import Mathlib.Data.List.Induction
import Mathlib.Data.List.Nodup
import Mathlib.Order.Nat
import Mathlib.Tactic.ByContra
import Mathlib.Tactic.Tauto

/-!
# Delivery of events

A registry through any acts: observers are added, removed and dropped, and events are delivered. The
acts alone say who is told of an event, and in which order (`Enrolled`, `Before`). After every run
the entries of the registry, stale ones included, deliver accordingly (`Serves`).
-/

namespace AdLedger.Registry

variable {ι : Type}

/-- What may happen to a registry and its observers. -/
inductive Act (ι : Type) where
  | add (x : ι)
  | remove (x : ι)
  /-- The last reference to an observer is gone, for good. -/
  | drop (x : ι)
  | notify (event : Event)
  deriving DecidableEq

/-! ## What acts say of observers -/

/-- An observer was added at a place among the acts and has not been removed since, and every
earlier addition of it was followed by a removal before that. -/
structure Joined (acts : List (Act ι)) (x : ι) (n : Nat) : Prop where
  added : acts[n]? = some (.add x)
  kept : ∀ k, n < k → acts[k]? ≠ some (.remove x)
  first : ∀ m, m < n → acts[m]? = some (.add x) →
    ∃ k, m < k ∧ k < n ∧ acts[k]? = some (.remove x)

/-- An observer is alive, and has been added and not removed since. -/
def Enrolled (acts : List (Act ι)) (x : ι) : Prop := .drop x ∉ acts ∧ ∃ n, Joined acts x n

/-- One observer has joined before another one. -/
def Before (acts : List (Act ι)) (x y : ι) : Prop :=
  ∃ m n, Joined acts x m ∧ Joined acts y n ∧ m < n

variable {acts : List (Act ι)} {act : Act ι} {x y : ι} {m n : Nat}

theorem Joined.lt_length (h : Joined acts x n) : n < acts.length :=
  (List.getElem?_eq_some_iff.1 h.added).1

theorem Joined.le_of_joined (hm : Joined acts x m) (hn : Joined acts x n) : n ≤ m := by
  by_contra hlt
  obtain ⟨k, hmk, -, hk⟩ := hn.first m (Nat.not_le.1 hlt) hm.added
  exact hm.kept k hmk hk

theorem not_before_self : ¬ Before acts x x := by
  rintro ⟨m, n, hm, hn, hlt⟩
  exact Nat.not_le.2 hlt (hm.le_of_joined hn)

/-- Of the additions that no removal follows, the first is where the observer has joined. -/
theorem exists_joined (hm : acts[m]? = some (.add x))
    (hkept : ∀ k, m < k → acts[k]? ≠ some (.remove x)) : ∃ n, Joined acts x n := by
  classical
  have hex : ∃ n, acts[n]? = some (Act.add x) ∧ ∀ k, n < k → acts[k]? ≠ some (Act.remove x) :=
    ⟨m, hm, hkept⟩
  obtain ⟨hadd, hlast⟩ := Nat.find_spec hex
  refine ⟨Nat.find hex, hadd, hlast, fun j hj hja => ?_⟩
  have hremoved : ∃ k, j < k ∧ acts[k]? = some (.remove x) := by
    by_contra hnone
    exact Nat.find_min hex hj ⟨hja, fun k hk hkr => hnone ⟨k, hk, hkr⟩⟩
  obtain ⟨k, hjk, hk⟩ := hremoved
  obtain hlt | heq | hgt := Nat.lt_trichotomy k (Nat.find hex)
  · exact ⟨k, hjk, hlt, hk⟩
  · rw [heq, hadd] at hk
    exact nomatch hk
  · exact absurd hk (hlast k hgt)

theorem getElem?_snoc_eq_some {a : Act ι} :
    (acts ++ [act])[n]? = some a ↔ acts[n]? = some a ∨ n = acts.length ∧ act = a := by
  obtain hlt | rfl | hgt := Nat.lt_trichotomy n acts.length
  · simp [List.getElem?_append_left hlt, Nat.ne_of_lt hlt]
  · simp
  · have hnone : (acts ++ [act])[n]? = none :=
      List.getElem?_eq_none (by simpa using Nat.succ_le_of_lt hgt)
    simp [hnone, hgt.le, Nat.ne_of_gt hgt]

/-- One more act leaves an observer joined where it was, unless it removes it, and lets it join if
it adds it and it has not joined yet. -/
theorem joined_snoc_iff :
    Joined (acts ++ [act]) x n ↔
      Joined acts x n ∧ act ≠ .remove x ∨
        n = acts.length ∧ act = .add x ∧ ∀ m, ¬ Joined acts x m := by
  constructor
  · intro h
    have hkept : ∀ k, n < k → acts[k]? ≠ some (.remove x) := fun k hk hr =>
      h.kept k hk (getElem?_snoc_eq_some.2 (.inl hr))
    have hfirst : ∀ m, m < n → acts[m]? = some (.add x) →
        ∃ k, m < k ∧ k < n ∧ acts[k]? = some (.remove x) := by
      intro m hm ha
      obtain ⟨k, hmk, hkn, hk⟩ := h.first m hm (getElem?_snoc_eq_some.2 (.inl ha))
      obtain hk | ⟨rfl, -⟩ := getElem?_snoc_eq_some.1 hk
      · exact ⟨k, hmk, hkn, hk⟩
      · have hlen : n < (acts ++ [act]).length := h.lt_length
        simp only [List.length_append, List.length_singleton] at hlen
        omega
    obtain ha | ⟨rfl, rfl⟩ := getElem?_snoc_eq_some.1 h.added
    · refine .inl ⟨⟨ha, hkept, hfirst⟩, fun hr => ?_⟩
      have hlt : n < acts.length := (List.getElem?_eq_some_iff.1 ha).1
      exact h.kept acts.length hlt (getElem?_snoc_eq_some.2 (.inr ⟨rfl, hr⟩))
    · refine .inr ⟨rfl, rfl, fun m hm => ?_⟩
      obtain ⟨k, hmk, -, hk⟩ := hfirst m hm.lt_length hm.added
      exact hm.kept k hmk hk
  · rintro (⟨h, hact⟩ | ⟨rfl, rfl, hnone⟩)
    · refine ⟨getElem?_snoc_eq_some.2 (.inl h.added), fun k hk hr => ?_, fun m hm ha => ?_⟩
      · obtain hr | ⟨-, hr⟩ := getElem?_snoc_eq_some.1 hr
        · exact h.kept k hk hr
        · exact hact hr
      · obtain ha | ⟨rfl, -⟩ := getElem?_snoc_eq_some.1 ha
        · obtain ⟨k, hmk, hkn, hk⟩ := h.first m hm ha
          exact ⟨k, hmk, hkn, getElem?_snoc_eq_some.2 (.inl hk)⟩
        · exact absurd h.lt_length (Nat.not_lt.2 hm.le)
    · refine ⟨getElem?_snoc_eq_some.2 (.inr ⟨rfl, rfl⟩), fun k hk hr => ?_, fun m hm ha => ?_⟩
      · obtain hr | ⟨rfl, -⟩ := getElem?_snoc_eq_some.1 hr
        · exact absurd (List.getElem?_eq_some_iff.1 hr).1 (Nat.not_lt.2 hk.le)
        · exact Nat.lt_irrefl _ hk
      · obtain ha | ⟨rfl, -⟩ := getElem?_snoc_eq_some.1 ha
        · -- Were the earlier addition not removed, the observer would have joined already.
          by_contra hno
          obtain ⟨n, hn⟩ := exists_joined ha fun k hk hr =>
            hno ⟨k, hk, (List.getElem?_eq_some_iff.1 hr).1, getElem?_snoc_eq_some.2 (.inl hr)⟩
          exact hnone n hn
        · exact absurd hm (Nat.lt_irrefl _)

theorem exists_joined_snoc_iff :
    (∃ n, Joined (acts ++ [act]) x n) ↔
      (∃ n, Joined acts x n) ∧ act ≠ .remove x ∨ act = .add x := by
  simp only [joined_snoc_iff]
  constructor
  · rintro ⟨n, ⟨h, hact⟩ | ⟨-, hact, -⟩⟩
    · exact .inl ⟨⟨n, h⟩, hact⟩
    · exact .inr hact
  · rintro (⟨⟨n, h⟩, hact⟩ | rfl)
    · exact ⟨n, .inl ⟨h, hact⟩⟩
    · by_cases h : ∃ n, Joined acts x n
      · obtain ⟨n, h⟩ := h
        exact ⟨n, .inl ⟨h, nofun⟩⟩
      · exact ⟨acts.length, .inr ⟨rfl, rfl, not_exists.1 h⟩⟩

/-- Who is enrolled after one more act. -/
theorem enrolled_snoc_iff :
    Enrolled (acts ++ [act]) x ↔
      act ≠ .drop x ∧ (Enrolled acts x ∧ act ≠ .remove x ∨ .drop x ∉ acts ∧ act = .add x) := by
  unfold Enrolled
  rw [exists_joined_snoc_iff, List.mem_append, List.mem_singleton, not_or]
  tauto

/-- Observers stay in their order as long as neither is removed. -/
theorem Before.snoc (h : Before acts x y) (hx : act ≠ .remove x) (hy : act ≠ .remove y) :
    Before (acts ++ [act]) x y := by
  obtain ⟨m, n, hm, hn, hlt⟩ := h
  exact ⟨m, n, joined_snoc_iff.2 (.inl ⟨hm, hx⟩), joined_snoc_iff.2 (.inl ⟨hn, hy⟩), hlt⟩

theorem Before.snoc_of_ne_remove (h : Before acts x y) (hact : ∀ z, act ≠ .remove z) :
    Before (acts ++ [act]) x y :=
  h.snoc (hact x) (hact y)

/-- Whoever joins last comes after all who have joined already. -/
theorem before_snoc_add (hx : ∃ n, Joined acts x n) (hy : ∀ n, ¬ Joined acts y n) :
    Before (acts ++ [.add y]) x y := by
  obtain ⟨n, hn⟩ := hx
  exact ⟨n, acts.length, joined_snoc_iff.2 (.inl ⟨hn, nofun⟩),
    joined_snoc_iff.2 (.inr ⟨rfl, rfl, hy⟩), hn.lt_length⟩

/-! ## Registries after acts -/

variable [DecidableEq ι]

def step (r : Registry ι) : Act ι → Registry ι
  | .add x => r.add x
  | .remove x => r.remove x
  | .drop x => r.drop x
  | .notify _ => r

/-- The registry after acts, one after the other, from one without entries. -/
def after (acts : List (Act ι)) : Registry ι := acts.foldl step empty

theorem after_snoc (acts : List (Act ι)) (act : Act ι) :
    after (acts ++ [act]) = (after acts).step act := List.foldl_append

/-- What acts deliver from a registry on. -/
def told (r : Registry ι) : List (Act ι) → List (ι × Event)
  | [] => []
  | .notify event :: acts => r.notify event ++ r.told acts
  | act :: acts => (r.step act).told acts

theorem told_append (r : Registry ι) (acts more : List (Act ι)) :
    r.told (acts ++ more) = r.told acts ++ (acts.foldl step r).told more := by
  induction acts generalizing r with
  | nil => rfl
  | cons act acts ih =>
    cases act with
    | notify event =>
      rw [List.cons_append, told, told, ih, List.append_assoc]
      rfl
    | _ => exact ih _

/-- The recipients of a registry are the observers that acts have enrolled, in the order in which
they have joined. -/
structure Serves (r : Registry ι) (acts : List (Act ι)) : Prop where
  alive : ∀ x, r.isAlive x = true ↔ .drop x ∉ acts
  mem : ∀ x, x ∈ r.recipients ↔ Enrolled acts x
  ordered : r.recipients.Pairwise (Before acts)

theorem isAlive_step (r : Registry ι) (act : Act ι) (x : ι) :
    (r.step act).isAlive x = (r.isAlive x && decide (act ≠ .drop x)) := by
  cases act with
  | drop y => by_cases h : x = y <;> simp [step, drop, isAlive, h, eq_comm]
  | _ => simp [step, add, remove, isAlive]

namespace Serves

variable {r : Registry ι}

theorem empty : Serves (empty : Registry ι) [] where
  alive x := by simp [isAlive, Registry.empty]
  mem x := by
    rw [recipients_empty, iff_false_left List.not_mem_nil]
    rintro ⟨-, n, hn⟩
    exact absurd hn.lt_length (Nat.not_lt_zero n)
  ordered := .nil

/-- Recipients that an act takes no one from but `x`. -/
theorem pairwise_filter (h : Serves r acts) (hact : ∀ y, act = .remove y → y = x) :
    (r.recipients.filter (· ≠ x)).Pairwise (Before (acts ++ [act])) := by
  refine (h.ordered.filter _).imp_of_mem fun {y z} hy hz hyz => hyz.snoc ?_ ?_
  · exact fun hr => of_decide_eq_true (List.mem_filter.1 hy).2 (hact y hr)
  · exact fun hr => of_decide_eq_true (List.mem_filter.1 hz).2 (hact z hr)

/-- One act takes a registry that serves acts to one that serves it as well. -/
theorem step (h : Serves r acts) (act : Act ι) : Serves (r.step act) (acts ++ [act]) where
  alive x := by
    rw [isAlive_step, Bool.and_eq_true, h.alive x, decide_eq_true_eq, List.mem_append,
      List.mem_singleton, not_or]
    exact and_congr_right fun _ => ne_comm
  mem x := by
    rw [enrolled_snoc_iff, ← h.mem x]
    cases act with
    | add y =>
      have hadd : x ∈ (r.step (.add y)).recipients ↔
          x ∈ r.recipients ∨ r.isAlive x = true ∧ y = x := by
        rw [Registry.step, recipients_add]
        split
        next hold =>
          refine ⟨.inl, fun hx => hx.elim id ?_⟩
          rintro ⟨halive, rfl⟩
          exact hold.resolve_right (by simp [halive])
        next hnew =>
          have halive : r.isAlive y = true := by simpa using (not_or.1 hnew).2
          rw [List.mem_append, List.mem_singleton]
          refine or_congr_right ⟨?_, fun hx => hx.2.symm⟩
          rintro rfl
          exact ⟨halive, rfl⟩
      rw [hadd, h.alive x]
      simp
    | remove y =>
      rw [Registry.step, recipients_remove, List.mem_filter, decide_eq_true_eq]
      simp [eq_comm]
    | drop y =>
      rw [Registry.step, recipients_drop, List.mem_filter, decide_eq_true_eq]
      simp [eq_comm, and_comm]
    | notify event => simp [Registry.step]
  ordered := by
    cases act with
    | add y =>
      have hold : r.recipients.Pairwise (Before (acts ++ [.add y])) :=
        h.ordered.imp fun hxy => hxy.snoc_of_ne_remove (by simp)
      rw [Registry.step, recipients_add]
      split
      next => exact hold
      next hnew =>
        obtain ⟨hmem, halive⟩ := not_or.1 hnew
        have hjoined : ∀ n, ¬ Joined acts y n := fun n hn =>
          hmem ((h.mem y).2 ⟨(h.alive y).1 (by simpa using halive), n, hn⟩)
        refine List.pairwise_append.2 ⟨hold, List.pairwise_singleton _ _, fun x hx z hz => ?_⟩
        obtain rfl := List.mem_singleton.1 hz
        exact before_snoc_add ((h.mem x).1 hx).2 hjoined
    | remove y =>
      rw [Registry.step, recipients_remove]
      exact h.pairwise_filter fun z hz => (Act.remove.inj hz).symm
    | drop y =>
      rw [Registry.step, recipients_drop]
      exact h.pairwise_filter (by simp)
    | notify event => exact h.ordered.imp fun hxy => hxy.snoc_of_ne_remove (by simp)

theorem after (acts : List (Act ι)) : Serves (after acts) acts := by
  induction acts using List.reverseRecOn with
  | nil => exact empty
  | append_singleton acts act ih =>
    rw [after_snoc]
    exact ih.step act

end Serves

theorem mem_notify_iff {r : Registry ι} {event told : Event} {x : ι} :
    (x, told) ∈ r.notify event ↔ told = event ∧ x ∈ r.recipients := by
  simp [notify, eq_comm, and_comm]

/-- What is delivered after acts, and after one more act or any more. -/
structure Delivers (acts : List (Act ι)) : Prop where
  /-- An event is delivered between what the acts before and after it deliver. -/
  inTurn : ∀ (event : Event) more, empty.told (acts ++ .notify event :: more) =
    empty.told acts ++ (after acts).notify event ++ (after acts).told more
  /-- The event goes to each observer that is enrolled, and to no other. -/
  reaches : ∀ (event : Event) x told,
    (x, told) ∈ (after acts).notify event ↔ told = event ∧ Enrolled acts x
  once : ∀ event : Event, ((after acts).notify event).Nodup
  ordered : ∀ event : Event, ((after acts).notify event).Pairwise fun d e => Before acts d.1 e.1
  counted : ∀ event : Event, (after acts).count = ((after acts).notify event).length
  /-- Adding an observer that is enrolled changes nothing. -/
  added : ∀ x, Enrolled acts x →
    (after (acts ++ [.add x])).count = (after acts).count ∧
    ∀ event : Event, (after (acts ++ [.add x])).notify event = (after acts).notify event
  /-- Removing an observer leaves the others as they were. -/
  removed : ∀ x (event : Event),
    (after (acts ++ [.remove x])).notify event = ((after acts).notify event).filter (·.1 ≠ x)
  /-- A dropped observer is never reached again. -/
  dropped : ∀ x, .drop x ∈ acts → ∀ more (event told : Event),
    (x, told) ∉ (after (acts ++ more)).notify event

/-- Whatever observers are added, removed and dropped, and in whichever order, each event is
delivered once to every observer that is alive and has been added and not removed since, and to no
other, in the order in which these have joined; and as many observers are counted. -/
theorem delivers (acts : List (Act ι)) : Delivers acts where
  inTurn event more := by
    rw [told_append, List.append_assoc]
    rfl
  reaches event x told := by rw [mem_notify_iff, (Serves.after acts).mem]
  once event := by
    refine List.Nodup.map (fun x y hxy => (Prod.mk.inj hxy).1) ?_
    refine (Serves.after acts).ordered.imp fun {x y} hxy => ?_
    rintro rfl
    exact not_before_self hxy
  ordered event := List.pairwise_map.2 (Serves.after acts).ordered
  counted event := (List.length_map _).symm
  added x hx := by
    have hsame : (after (acts ++ [.add x])).recipients = (after acts).recipients := by
      rw [after_snoc, step, recipients_add, if_pos (.inl (((Serves.after acts).mem x).2 hx))]
    simp only [count, notify, hsame, implies_true, and_self]
  removed x event := by
    rw [after_snoc, step, notify, recipients_remove, notify, List.filter_map]
    rfl
  dropped x hx more event told := by
    rw [mem_notify_iff, (Serves.after _).mem]
    exact fun h => h.2.1 (List.mem_append_left _ hx)

example : (after [.add 0, .add 1, .add 2, .drop 1, .add 2, .remove 0, .add 0]).recipients =
    [2, 0] := by decide

end AdLedger.Registry
