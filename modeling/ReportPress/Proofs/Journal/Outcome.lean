import ReportPress.Journal.Traced

/-!
# What actions come to

Two ways to speak of an action without its journal. The first says what becomes of one action:
`Yields` when it ends well, `Fails` when it does not, with an equation for every way in which
actions are put together, so that no proof has to open an action again.

The second compares two actions on different states. `Follows` says that whatever the second action
does, the first does as well, and that the states stay related on the way. Errors of a kind that is
named beforehand are excepted: of a run that ends with one of them nothing is said. The rules for
`Follows` have the shape of the actions, so two actions that are written alike are compared part by
part.
-/

namespace ReportPress

variable {σ τ ε ε' α β : Type}

@[simp] theorem mapError_ok (f : ε → ε') (a : α) :
    (Except.ok a : Except ε α).mapError f = .ok a := rfl

@[simp] theorem mapError_error (f : ε → ε') (e : ε) :
    (Except.error e : Except ε α).mapError f = .error (f e) := rfl

@[simp] theorem mapError_eq_ok {x : Except ε α} {f : ε → ε'} {a : α} :
    x.mapError f = .ok a ↔ x = .ok a := by
  cases x <;> simp

@[simp] theorem mapError_eq_error {x : Except ε α} {f : ε → ε'} {e : ε'} :
    x.mapError f = .error e ↔ ∃ cause, x = .error cause ∧ e = f cause := by
  cases x <;> simp [eq_comm]

theorem map_eq_ok {x : Except ε α} {f : α → β} {b : β} :
    x.map f = .ok b ↔ ∃ a, x = .ok a ∧ f a = b := by
  cases x <;> simp [Except.map]

theorem map_eq_error {x : Except ε α} {f : α → β} {e : ε} :
    x.map f = .error e ↔ x = .error e := by
  cases x <;> simp [Except.map]

@[simp] theorem Traced.result_mapError (x : Traced ε α) (f : ε → ε') :
    (x.mapError f).result = x.result.mapError f := rfl

namespace Action

/-! ## One action -/

/-- Starting from `s`, the action ends well, with the value `a` and in the state `s'`. -/
def Yields (x : Action σ ε α) (s : σ) (a : α) (s' : σ) : Prop :=
  (x s).1.result = .ok a ∧ (x s).2 = s'

/-- Starting from `s`, the action ends with the error `e`. -/
def Fails (x : Action σ ε α) (s : σ) (e : ε) : Prop := (x s).1.result = .error e

@[simp] theorem yields_pure {a b : α} {s s' : σ} :
    Yields (pure a : Action σ ε α) s b s' ↔ b = a ∧ s' = s := by
  simp [Yields, pure, Traced.ofExcept, eq_comm]

@[simp] theorem not_fails_pure {a : α} {s : σ} {e : ε} : ¬Fails (pure a : Action σ ε α) s e := by
  simp [Fails, pure, Traced.ofExcept]

@[simp] theorem yields_bind {x : Action σ ε α} {f : α → Action σ ε β} {s s' : σ} {b : β} :
    Yields (x >>= f) s b s' ↔ ∃ a t, Yields x s a t ∧ Yields (f a) t b s' := by
  simp only [Yields, Bind.bind, bind]
  rcases x s with ⟨⟨_ | a, journal⟩, t⟩
  · simp
  · constructor
    · exact fun h ↦ ⟨a, t, ⟨rfl, rfl⟩, h⟩
    · rintro ⟨_, _, ⟨⟨⟩, rfl⟩, h⟩
      exact h

@[simp] theorem fails_bind {x : Action σ ε α} {f : α → Action σ ε β} {s : σ} {e : ε} :
    Fails (x >>= f) s e ↔ Fails x s e ∨ ∃ a t, Yields x s a t ∧ Fails (f a) t e := by
  simp only [Yields, Fails, Bind.bind, bind]
  rcases x s with ⟨⟨_ | a, journal⟩, t⟩
  · simp
  · constructor
    · exact fun h ↦ .inr ⟨a, t, ⟨rfl, rfl⟩, h⟩
    · rintro (⟨⟨⟩⟩ | ⟨_, _, ⟨⟨⟩, rfl⟩, h⟩)
      exact h

@[simp] theorem yields_map {x : Action σ ε α} {f : α → β} {s s' : σ} {b : β} :
    Yields (f <$> x) s b s' ↔ ∃ a, Yields x s a s' ∧ b = f a := by
  simp only [map_eq_pure_bind, yields_bind, yields_pure]
  exact ⟨fun ⟨a, _, hx, hb, hs⟩ ↦ ⟨a, hs ▸ hx, hb⟩, fun ⟨a, hx, hb⟩ ↦ ⟨a, s', hx, hb, rfl⟩⟩

@[simp] theorem fails_map {x : Action σ ε α} {f : α → β} {s : σ} {e : ε} :
    Fails (f <$> x) s e ↔ Fails x s e := by
  rw [map_eq_pure_bind, fails_bind, or_iff_left]
  rintro ⟨a, t, -, h⟩
  exact not_fails_pure h

@[simp] theorem yields_state {s s' t : σ} :
    Yields (state : Action σ ε σ) s t s' ↔ t = s ∧ s' = s := by
  simp [Yields, state, pure, Traced.ofExcept, eq_comm]

@[simp] theorem not_fails_state {s : σ} {e : ε} : ¬Fails (state : Action σ ε σ) s e := by
  simp [Fails, state, pure, Traced.ofExcept]

@[simp] theorem yields_change {f : σ → σ} {s s' : σ} {u : Unit} :
    Yields (change f : Action σ ε Unit) s u s' ↔ s' = f s := by
  simp [Yields, change, pure, Traced.ofExcept, eq_comm]

@[simp] theorem not_fails_change {f : σ → σ} {s : σ} {e : ε} :
    ¬Fails (change f : Action σ ε Unit) s e := by
  simp [Fails, change, pure, Traced.ofExcept]

@[simp] theorem yields_note {event : Event} {s s' : σ} {u : Unit} :
    Yields (note event : Action σ ε Unit) s u s' ↔ s' = s := by
  simp [Yields, note, Traced.note, eq_comm]

@[simp] theorem not_fails_note {event : Event} {s : σ} {e : ε} :
    ¬Fails (note event : Action σ ε Unit) s e := by
  simp [Fails, note, Traced.note]

@[simp] theorem not_yields_fail {e : ε} {s s' : σ} {a : α} : ¬Yields (fail e) s a s' := by
  simp [Yields, fail, Traced.fail]

@[simp] theorem fails_fail {e e' : ε} {s : σ} :
    Fails (fail e : Action σ ε α) s e' ↔ e' = e := by
  simp [Fails, fail, Traced.fail, eq_comm]

@[simp] theorem yields_lift {x : Traced ε α} {s s' : σ} {a : α} :
    Yields (lift x) s a s' ↔ x.result = .ok a ∧ s' = s := by
  simp [Yields, lift, eq_comm]

@[simp] theorem fails_lift {x : Traced ε α} {s : σ} {e : ε} :
    Fails (lift x) s e ↔ x.result = .error e := Iff.rfl

@[simp] theorem yields_ofExcept {x : Except ε α} {s s' : σ} {a : α} :
    Yields (ofExcept x) s a s' ↔ x = .ok a ∧ s' = s := yields_lift

@[simp] theorem fails_ofExcept {x : Except ε α} {s : σ} {e : ε} :
    Fails (ofExcept x) s e ↔ x = .error e := fails_lift

@[simp] theorem yields_within {get : σ → τ} {set : τ → σ → σ} {error : ε' → ε}
    {x : Action τ ε' α} {s s' : σ} {a : α} :
    Yields (within get set error x) s a s' ↔ ∃ t, Yields x (get s) a t ∧ s' = set t s := by
  simp only [Yields, within, Traced.mapError]
  rcases x (get s) with ⟨⟨_ | b, journal⟩, t⟩
  · simp
  · constructor
    · rintro ⟨⟨⟩, rfl⟩
      exact ⟨t, ⟨rfl, rfl⟩, rfl⟩
    · rintro ⟨_, ⟨⟨⟩, rfl⟩, rfl⟩
      exact ⟨rfl, rfl⟩

@[simp] theorem fails_within {get : σ → τ} {set : τ → σ → σ} {error : ε' → ε}
    {x : Action τ ε' α} {s : σ} {e : ε} :
    Fails (within get set error x) s e ↔ ∃ e', Fails x (get s) e' ∧ e = error e' := by
  simp only [Fails, within, Traced.mapError]
  rcases x (get s) with ⟨⟨_ | b, journal⟩, t⟩ <;> simp [eq_comm]

theorem Yields.unique {x : Action σ ε α} {s s' s'' : σ} {a b : α} (h : Yields x s a s')
    (h' : Yields x s b s'') : b = a ∧ s'' = s' :=
  ⟨Except.ok.inj (h'.1.symm.trans h.1), h'.2.symm.trans h.2⟩

theorem Yields.not_fails {x : Action σ ε α} {s s' : σ} {a : α} {e : ε} (h : Yields x s a s') :
    ¬Fails x s e := by
  intro he
  rw [Fails, h.1] at he
  cases he

/-! ## Two actions -/

/-- Whatever `y` does from a state `t`, `x` does from every state `s` that is related to it, except
for errors that are `lost`. -/
def Follows (lost : ε → Prop) (R : σ → τ → Prop) (x : Action σ ε α) (y : Action τ ε α) : Prop :=
  ∀ ⦃s t⦄, R s t →
    (∀ a t', Yields y t a t' → ∃ s', Yields x s a s' ∧ R s' t') ∧
      ∀ e, Fails y t e → lost e ∨ Fails x s e

namespace Follows

variable {lost : ε → Prop} {R : σ → τ → Prop}

/-- Actions that cannot fail, given by their values and by what they make of the state. -/
theorem of_yields {x : Action σ ε α} {y : Action τ ε α} (v : σ → α) (w : τ → α) (f : σ → σ)
    (g : τ → τ) (hx : ∀ s, Yields x s (v s) (f s)) (hy : ∀ t, Yields y t (w t) (g t))
    (hfg : ∀ s t, R s t → v s = w t ∧ R (f s) (g t)) : Follows lost R x y := by
  intro s t h
  obtain ⟨hvw, h'⟩ := hfg s t h
  constructor
  · intro a t' ha
    obtain ⟨rfl, rfl⟩ := (hy t).unique ha
    exact ⟨f s, hvw ▸ hx s, h'⟩
  · exact fun e he ↦ absurd he (hy t).not_fails

theorem pure (a : α) : Follows lost R (pure a) (pure a) :=
  of_yields (fun _ ↦ a) (fun _ ↦ a) id id (fun _ ↦ yields_pure.mpr ⟨rfl, rfl⟩)
    (fun _ ↦ yields_pure.mpr ⟨rfl, rfl⟩) fun _ _ h ↦ ⟨rfl, h⟩

theorem change {f : σ → σ} {g : τ → τ} (hfg : ∀ s t, R s t → R (f s) (g t)) :
    Follows lost R (change f) (change g) :=
  of_yields (fun _ ↦ ()) (fun _ ↦ ()) f g (fun _ ↦ yields_change.mpr rfl)
    (fun _ ↦ yields_change.mpr rfl) fun s t h ↦ ⟨rfl, hfg s t h⟩

theorem note (event event' : Event) : Follows lost R (note event) (note event') :=
  of_yields (fun _ ↦ ()) (fun _ ↦ ()) id id (fun _ ↦ yields_note.mpr rfl)
    (fun _ ↦ yields_note.mpr rfl) fun _ _ h ↦ ⟨rfl, h⟩

theorem bind {x : Action σ ε α} {y : Action τ ε α} {f : α → Action σ ε β} {g : α → Action τ ε β}
    (hxy : Follows lost R x y) (hfg : ∀ a, Follows lost R (f a) (g a)) :
    Follows lost R (x >>= f) (y >>= g) := by
  intro s t h
  constructor
  · intro b t'' hb
    obtain ⟨a, t', hy, hg⟩ := yields_bind.mp hb
    obtain ⟨s', hx, h'⟩ := (hxy h).1 a t' hy
    obtain ⟨s'', hf, h''⟩ := (hfg a h').1 b t'' hg
    exact ⟨s'', yields_bind.mpr ⟨a, s', hx, hf⟩, h''⟩
  · intro e he
    rcases fails_bind.mp he with hy | ⟨a, t', hy, hg⟩
    · exact ((hxy h).2 e hy).imp_right fun hx ↦ fails_bind.mpr (Or.inl hx)
    · obtain ⟨s', hx, h'⟩ := (hxy h).1 a t' hy
      exact ((hfg a h').2 e hg).imp_right fun hf ↦ fails_bind.mpr (Or.inr ⟨a, s', hx, hf⟩)

theorem state_bind {f : σ → Action σ ε β} {g : τ → Action τ ε β}
    (hfg : ∀ s t, R s t → Follows lost R (f s) (g t)) :
    Follows lost R (state >>= f) (state >>= g) := by
  intro s t h
  constructor
  · intro b t'' hb
    obtain ⟨_, _, hs, hg⟩ := yields_bind.mp hb
    obtain ⟨rfl, rfl⟩ := yields_state.mp hs
    obtain ⟨s'', hf, h''⟩ := (hfg s _ h h).1 b t'' hg
    exact ⟨s'', yields_bind.mpr ⟨s, s, yields_state.mpr ⟨rfl, rfl⟩, hf⟩, h''⟩
  · intro e he
    rcases fails_bind.mp he with hs | ⟨_, _, hs, hg⟩
    · exact absurd hs not_fails_state
    · obtain ⟨rfl, rfl⟩ := yields_state.mp hs
      exact ((hfg s _ h h).2 e hg).imp_right fun hf ↦
        fails_bind.mpr (Or.inr ⟨s, s, yields_state.mpr ⟨rfl, rfl⟩, hf⟩)

theorem ite {p : Prop} [Decidable p] {x x' : Action σ ε α} {y y' : Action τ ε α}
    (h : Follows lost R x y) (h' : Follows lost R x' y') :
    Follows lost R (if p then x else x') (if p then y else y') := by
  split
  · exact h
  · exact h'

theorem lift (x : Traced ε α) : Follows lost R (lift x) (lift x) := by
  intro s t h
  constructor
  · intro a t' ht
    obtain ⟨ha, rfl⟩ := yields_lift.mp ht
    exact ⟨s, yields_lift.mpr ⟨ha, rfl⟩, h⟩
  · exact fun e he ↦ Or.inr he

theorem ofExcept (x : Except ε α) : Follows lost R (ofExcept x) (ofExcept x) := lift _

theorem fail (e : ε) : Follows lost R (fail e : Action σ ε α) (fail e) := lift (Traced.fail e)

end Follows

end Action

end ReportPress
