import ReportPress.Proofs.Journal.Outcome

/-!
# What failures leave behind

An action that fails leaves a state, and what it did before the failure stays done. `Breaks` says
with which error an action fails and in which state it leaves off. It has an equation for every way
in which actions are put together, like `Yields`: a sequence breaks in its first part, or after the
first part ended well.
-/

namespace ReportPress.Action

variable {σ τ ε ε' α β : Type}

/-- Starting from `s`, the action ends with the error `e` and leaves the state `s'`. -/
def Breaks (x : Action σ ε α) (s : σ) (e : ε) (s' : σ) : Prop :=
  (x s).1.result = .error e ∧ (x s).2 = s'

theorem fails_iff_breaks {x : Action σ ε α} {s : σ} {e : ε} :
    Fails x s e ↔ ∃ s', Breaks x s e s' := by
  simp [Fails, Breaks]

theorem exists_yields_or_breaks (x : Action σ ε α) (s : σ) :
    (∃ a, Yields x s a (x s).2) ∨ ∃ e, Breaks x s e (x s).2 := by
  cases h : (x s).1.result with
  | ok a => exact Or.inl ⟨a, h, rfl⟩
  | error e => exact Or.inr ⟨e, h, rfl⟩

@[simp] theorem not_breaks_pure {a : α} {s s' : σ} {e : ε} :
    ¬Breaks (pure a : Action σ ε α) s e s' :=
  fun h ↦ not_fails_pure h.1

@[simp] theorem breaks_bind {x : Action σ ε α} {f : α → Action σ ε β} {s s' : σ} {e : ε} :
    Breaks (x >>= f) s e s' ↔ Breaks x s e s' ∨ ∃ a t, Yields x s a t ∧ Breaks (f a) t e s' := by
  simp only [Yields, Breaks, Bind.bind, bind]
  rcases x s with ⟨⟨_ | a, journal⟩, t⟩
  · simp
  · constructor
    · exact fun h ↦ .inr ⟨a, t, ⟨rfl, rfl⟩, h⟩
    · rintro (⟨⟨⟩, -⟩ | ⟨_, _, ⟨⟨⟩, rfl⟩, h⟩)
      exact h

@[simp] theorem breaks_map {x : Action σ ε α} {f : α → β} {s s' : σ} {e : ε} :
    Breaks (f <$> x) s e s' ↔ Breaks x s e s' := by
  rw [map_eq_pure_bind, breaks_bind, or_iff_left]
  rintro ⟨a, t, -, h⟩
  exact not_breaks_pure h

@[simp] theorem not_breaks_state {s s' : σ} {e : ε} :
    ¬Breaks (state : Action σ ε σ) s e s' :=
  fun h ↦ not_fails_state h.1

@[simp] theorem not_breaks_change {f : σ → σ} {s s' : σ} {e : ε} :
    ¬Breaks (change f : Action σ ε Unit) s e s' :=
  fun h ↦ not_fails_change h.1

@[simp] theorem not_breaks_note {event : Event} {s s' : σ} {e : ε} :
    ¬Breaks (note event : Action σ ε Unit) s e s' :=
  fun h ↦ not_fails_note h.1

@[simp] theorem breaks_fail {e e' : ε} {s s' : σ} :
    Breaks (fail e : Action σ ε α) s e' s' ↔ e' = e ∧ s' = s := by
  simp [Breaks, fail, Traced.fail, eq_comm]

@[simp] theorem breaks_lift {x : Traced ε α} {s s' : σ} {e : ε} :
    Breaks (lift x) s e s' ↔ x.result = .error e ∧ s' = s := by
  simp [Breaks, lift, eq_comm]

@[simp] theorem breaks_ofExcept {x : Except ε α} {s s' : σ} {e : ε} :
    Breaks (ofExcept x) s e s' ↔ x = .error e ∧ s' = s := breaks_lift

@[simp] theorem breaks_within {get : σ → τ} {set : τ → σ → σ} {error : ε' → ε}
    {x : Action τ ε' α} {s s' : σ} {e : ε} :
    Breaks (within get set error x) s e s' ↔
      ∃ e' t, Breaks x (get s) e' t ∧ e = error e' ∧ s' = set t s := by
  simp only [Breaks, within, Traced.mapError, mapError_eq_error]
  constructor
  · rintro ⟨⟨e', he', rfl⟩, rfl⟩
    exact ⟨e', _, ⟨he', rfl⟩, rfl, rfl⟩
  · rintro ⟨e', t, ⟨he', rfl⟩, rfl, rfl⟩
    exact ⟨⟨e', he', rfl⟩, rfl⟩

end ReportPress.Action
