import EcmaSyntax.Diagnostic.Failure

/-!
What a step that may fail can end in. A result has to satisfy one condition, a failure another; the
conditions compose along `bind`. Where it matters how far a step has come before it fails, the
failure is looked at together with the state it leaves, which stays as it is when the failure is
handed on to the steps around it.
-/

namespace EcmaSyntax

open EcmaSyntax.Diagnostic

variable {σ α β : Type}

theorem except_bind_ok {ε : Type} {x : Except ε α} {f : α → Except ε β} {b : β}
    (h : (x >>= f) = .ok b) : ∃ a, x = .ok a ∧ f a = .ok b := by
  cases x with
  | error e => cases h
  | ok a => exact ⟨a, rfl, h⟩

theorem bind_of_ok {ε : Type} {step : EStateM ε σ α} {rest : α → EStateM ε σ β} {s s' : σ}
    {a : α} (h : step s = .ok a s') : (step >>= rest) s = rest a s' := by
  change EStateM.bind step rest s = _
  simp only [EStateM.bind, h]

/-- A step from a state ends in a result with `Q` or in a failure with `E`. -/
def Meets (E : Failure → Prop) (step : EStateM Failure σ α) (Q : α → σ → Prop) (s : σ) : Prop :=
  match step s with
  | .ok a s' => Q a s'
  | .error failure _ => E failure

/-- A result of the step has `Q`; nothing is said about failures. -/
abbrev Yields (step : EStateM Failure σ α) (Q : α → σ → Prop) (s : σ) : Prop :=
  Meets (fun _ => True) step Q s

namespace Meets

variable {E : Failure → Prop} {Q R : α → σ → Prop} {s : σ}

theorem ok {step : EStateM Failure σ α} {a : α} {s' : σ} (h : step s = .ok a s') (hQ : Q a s') :
    Meets E step Q s := by
  unfold Meets
  rw [h]
  exact hQ

theorem error {step : EStateM Failure σ α} {failure : Failure} {s' : σ}
    (h : step s = .error failure s') (hE : E failure) : Meets E step Q s := by
  unfold Meets
  rw [h]
  exact hE

theorem result {step : EStateM Failure σ α} {a : α} {s' : σ} (h : Meets E step Q s)
    (hok : step s = .ok a s') : Q a s' := by
  unfold Meets at h
  rwa [hok] at h

theorem failure {step : EStateM Failure σ α} {failure : Failure} {s' : σ} (h : Meets E step Q s)
    (herror : step s = .error failure s') : E failure := by
  unfold Meets at h
  rwa [herror] at h

/-- A step that cannot fail has a result. -/
theorem exists_result {step : EStateM Failure σ α} (h : Meets (fun _ => False) step Q s) :
    ∃ a s', step s = .ok a s' ∧ Q a s' := by
  cases hs : step s with
  | ok a s' => exact ⟨a, s', rfl, h.result hs⟩
  | error failure s' => exact (h.failure hs).elim

theorem mono {step : EStateM Failure σ α} (h : Meets E step Q s) (hQ : ∀ a s', Q a s' → R a s') :
    Meets E step R s := by
  unfold Meets at h ⊢
  split
  · rename_i a s' hok
    rw [hok] at h
    exact hQ a s' h
  · rename_i failure s' herror
    rwa [herror] at h

theorem weaken {E' : Failure → Prop} {step : EStateM Failure σ α} (h : Meets E step Q s)
    (hE : ∀ failure, E failure → E' failure) : Meets E' step Q s := by
  unfold Meets at h ⊢
  split
  · rename_i a s' hok
    rwa [hok] at h
  · rename_i failure s' herror
    rw [herror] at h
    exact hE failure h

theorem bind {step : EStateM Failure σ α} {rest : α → EStateM Failure σ β} {P : β → σ → Prop}
    (h : Meets E step Q s) (hrest : ∀ a s', Q a s' → Meets E (rest a) P s') :
    Meets E (step >>= rest) P s := by
  cases hs : step s with
  | ok a s' =>
    have hbind : (step >>= rest) s = rest a s' := by
      change EStateM.bind step rest s = _
      simp only [EStateM.bind, hs]
    unfold Meets
    rw [hbind]
    exact hrest a s' (h.result hs)
  | error failure s' =>
    have hbind : (step >>= rest) s = .error failure s' := by
      change EStateM.bind step rest s = _
      simp only [EStateM.bind, hs]
    refine error hbind ?_
    unfold Meets at h
    rwa [hs] at h

/-- A step whose outcome is known. -/
theorem run {step : EStateM Failure σ α} {rest : α → EStateM Failure σ β} {P : β → σ → Prop}
    {a : α} {s' : σ} (h : step s = .ok a s') (hrest : Meets E (rest a) P s') :
      Meets E (step >>= rest) P s :=
  bind (ok h (Q := fun b t => b = a ∧ t = s') ⟨rfl, rfl⟩) fun b t hbt => by
    obtain ⟨rfl, rfl⟩ := hbt
    exact hrest

theorem pure {a : α} (h : Q a s) : Meets E (Pure.pure a) Q s := h

theorem map {step : EStateM Failure σ α} {f : α → β} {P : β → σ → Prop}
    (h : Meets E step (fun a s' => P (f a) s') s) : Meets E (f <$> step) P s := by
  rw [← bind_pure_comp]
  exact h.bind fun _ _ ha => ha

theorem of_results {step : EStateM Failure σ α} (h : ∀ a s', Q a s') : Yields step Q s := by
  unfold Yields Meets
  split
  · exact h _ _
  · trivial

/-- Nothing but the results of the step matters. -/
theorem yields_iff {step : EStateM Failure σ α} :
    Yields step Q s ↔ ∀ a s', step s = .ok a s' → Q a s' := by
  refine ⟨fun h a s' hok => h.result hok, fun h => ?_⟩
  unfold Yields Meets
  split
  · rename_i a s' hok
    exact h a s' hok
  · trivial

/-- What is known of the results apart from the failures. -/
theorem and {E : Failure → Prop} {R : α → σ → Prop} {step : EStateM Failure σ α}
    (h : Meets E step Q s) (h' : Yields step R s) :
    Meets E step (fun a s' => Q a s' ∧ R a s') s := by
  unfold Meets
  split
  · rename_i a s' hok
    exact ⟨h.result hok, h'.result hok⟩
  · rename_i failure s' herror
    unfold Meets at h
    rwa [herror] at h

/-- A step whose result does not matter. -/
theorem skip {step : EStateM Failure σ α} {rest : α → EStateM Failure σ β} {P : β → σ → Prop}
    (h : ∀ a s', Yields (rest a) P s') : Yields (step >>= rest) P s :=
  bind (of_results fun _ _ => trivial) fun a s' (_ : True) => h a s'

end Meets

/-- A step from a state ends in a result with `Q` or in a failure with `E`. -/
def EndsIn (E : Failure → σ → Prop) (step : EStateM Failure σ α) (Q : α → σ → Prop) (s : σ) :
    Prop :=
  match step s with
  | .ok a s' => Q a s'
  | .error failure s' => E failure s'

namespace EndsIn

variable {E : Failure → σ → Prop} {Q R : α → σ → Prop} {step : EStateM Failure σ α} {s : σ}

theorem ok {a : α} {s' : σ} (h : step s = .ok a s') (hQ : Q a s') : EndsIn E step Q s := by
  unfold EndsIn
  rw [h]
  exact hQ

theorem error {failure : Failure} {s' : σ} (h : step s = .error failure s')
    (hE : E failure s') : EndsIn E step Q s := by
  unfold EndsIn
  rw [h]
  exact hE

theorem result {a : α} {s' : σ} (h : EndsIn E step Q s) (hok : step s = .ok a s') : Q a s' := by
  unfold EndsIn at h
  rwa [hok] at h

theorem failure {failure : Failure} {s' : σ} (h : EndsIn E step Q s)
    (herror : step s = .error failure s') : E failure s' := by
  unfold EndsIn at h
  rwa [herror] at h

/-- What is known of all outcomes is known of the one that there is. -/
theorem intro (hok : ∀ a s', step s = .ok a s' → Q a s')
    (herror : ∀ failure s', step s = .error failure s' → E failure s') : EndsIn E step Q s := by
  cases h : step s with
  | ok a s' => exact ok h (hok a s' h)
  | error failure s' => exact error h (herror failure s' h)

theorem mono (h : EndsIn E step Q s) (hQ : ∀ a s', Q a s' → R a s') : EndsIn E step R s :=
  intro (fun a s' hok => hQ a s' (h.result hok)) fun _ _ => h.failure

theorem weaken {E' : Failure → σ → Prop} (h : EndsIn E step Q s)
    (hE : ∀ failure s', E failure s' → E' failure s') : EndsIn E' step Q s :=
  intro (fun _ _ => h.result) fun failure s' herror => hE failure s' (h.failure herror)

/-- The run that led to a result is known with it. -/
theorem noted (h : EndsIn E step Q s) :
    EndsIn E step (fun a s' => step s = .ok a s' ∧ Q a s') s :=
  intro (fun _ _ hok => ⟨hok, h.result hok⟩) fun _ _ => h.failure

theorem bind {rest : α → EStateM Failure σ β} {P : β → σ → Prop} (h : EndsIn E step Q s)
    (hrest : ∀ a s', Q a s' → EndsIn E (rest a) P s') : EndsIn E (step >>= rest) P s := by
  cases hs : step s with
  | ok a s' =>
    have hbind : (step >>= rest) s = rest a s' := bind_of_ok hs
    unfold EndsIn
    rw [hbind]
    exact hrest a s' (h.result hs)
  | error failure s' =>
    have hbind : (step >>= rest) s = .error failure s' := by
      change EStateM.bind step rest s = _
      simp only [EStateM.bind, hs]
    exact error hbind (h.failure hs)

/-- A step whose outcome is known. -/
theorem run {rest : α → EStateM Failure σ β} {P : β → σ → Prop} {a : α} {s' : σ}
    (h : step s = .ok a s') (hrest : EndsIn E (rest a) P s') : EndsIn E (step >>= rest) P s := by
  unfold EndsIn
  rw [bind_of_ok h]
  exact hrest

theorem pure {a : α} (h : Q a s) : EndsIn E (Pure.pure a) Q s := h

end EndsIn

end EcmaSyntax
