import AdLedger.Proofs.Store.Contents

/-!
# Effects of work

What work does to the state that it works with, as a relation between the state before it and the
state after it: whatever the result is (`Work.Always`), or whenever it fails (`Work.Fails`). Work
that reads changes nothing, and work that restores changes nothing when it fails.
-/

namespace AdLedger.Store.Work

variable {σ α β : Type} {w : Work σ α} {f : α → Work σ β} {R S : σ → σ → Prop}

/-- The state before the work and the one after it are related. -/
def Always (w : Work σ α) (R : σ → σ → Prop) : Prop := ∀ s, R s (w.on s).2

/-- Whenever the work fails, the state before it and the one after it are related. -/
def Fails (w : Work σ α) (R : σ → σ → Prop) : Prop :=
  ∀ s failure after, w.on s = (.error failure, after) → R s after

/-- Work that changes nothing. -/
def Reads (w : Work σ α) : Prop := w.Always fun s after => after = s

/-- Work that changes nothing when it fails. -/
def Restores (w : Work σ α) : Prop := w.Fails fun s after => after = s

/-! ## Always -/

theorem Always.bind (hw : w.Always R) (hR : ∀ {s t u}, R s t → R t u → R s u)
    (hf : ∀ a, (f a).Always R) : (w >>= f).Always R := by
  intro s
  have hs := hw s
  rw [on_bind]
  cases hon : w.on s with
  | mk result mid =>
    rw [hon] at hs
    cases result with
    | ok a => exact hR hs (hf a mid)
    | error failure => exact hs

/-- What is done with a result changes nothing. -/
theorem Always.map (hw : w.Always R) (g : α → β) : (w >>= fun a => pure (g a)).Always R := by
  intro s
  have hs := hw s
  rw [on_bind]
  cases hon : w.on s with
  | mk result mid =>
    rw [hon] at hs
    cases result <;> exact hs

theorem Reads.bind (hw : w.Reads) (hf : ∀ a, (f a).Reads) : (w >>= f).Reads :=
  Always.bind hw (fun h h' => h'.trans h) hf

/-! ## Failing -/

theorem Fails.mono (h : w.Fails R) (hRS : ∀ s t, R s t → S s t) : w.Fails S :=
  fun s failure after hs => hRS s after (h s failure after hs)

theorem Always.fails (hw : w.Always R) : w.Fails R := by
  intro s failure after h
  have hs := hw s
  rwa [h] at hs

theorem Reads.fails (hw : w.Reads) (hR : ∀ s, R s s) : w.Fails R :=
  (Always.fails hw).mono fun s _ h => h ▸ hR s

/-- What is done one after the other fails in its first part, or after that in its second. -/
theorem Fails.bind (hw : w.Fails R) (hf : ∀ s a mid, w.on s = (.ok a, mid) →
    ∀ failure after, (f a).on mid = (.error failure, after) → R s after) : (w >>= f).Fails R := by
  intro s failure after h
  rw [on_bind] at h
  cases hon : w.on s with
  | mk result mid =>
    rw [hon] at h
    cases result with
    | ok a => exact hf s a mid hon failure after h
    | error e =>
      cases h
      exact hw s failure after hon

/-- What is done with a result does not fail. -/
theorem Fails.map (hw : w.Fails R) (g : α → β) : (w >>= fun a => pure (g a)).Fails R :=
  hw.bind fun _ _ _ _ _ _ h => nomatch h

/-- Only the part that is done last can have changed something. -/
theorem Reads.bind_fails (hw : w.Reads) (hR : ∀ s, R s s) (hf : ∀ a, (f a).Fails R) :
    (w >>= f).Fails R := by
  refine (hw.fails hR).bind fun s a mid hon failure after h => ?_
  have hs := hw s
  rw [hon] at hs
  cases hs
  exact hf a mid failure after h

theorem fails_throw_bind (failure : Failure) (hR : ∀ s, R s s) :
    (throw failure >>= f).Fails R := by
  intro s e after h
  cases h
  exact hR s

/-- Work may begin with something that is known already. -/
theorem fails_mk_bind {result : Except Failure α} (hR : ∀ s, R s s)
    (hf : ∀ a, result = .ok a → (f a).Fails R) :
    (ExceptT.mk (pure result) >>= f : Work σ β).Fails R := by
  intro s failure after h
  cases result with
  | ok a => exact hf a rfl s failure after h
  | error e =>
    cases h
    exact hR s

end AdLedger.Store.Work
