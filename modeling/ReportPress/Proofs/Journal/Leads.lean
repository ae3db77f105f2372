import Mathlib.Order.Defs.Unbundled
import ReportPress.Proofs.Journal.Outcome

/-!
# Where actions lead

What an action that ends well can do to the state, as a relation between the states before and
behind it. For a relation that is reflexive and transitive there is a rule for every way in which
actions are put together, so an action leads where its parts lead. The same is said of whatever an
action leaves behind when nobody asks how it ended (`Leaves`).
-/

namespace ReportPress.Action

variable {σ ε α β : Type} {R : σ → σ → Prop}

/-- Whether an action that ends well leads to related states only. -/
def Leads (R : σ → σ → Prop) (x : Action σ ε α) : Prop :=
  ∀ ⦃s a s'⦄, Yields x s a s' → R s s'

namespace Leads

theorem change {f : σ → σ} (hf : ∀ s, R s (f s)) : Leads R (change f : Action σ ε Unit) := by
  intro s u s' h
  obtain rfl := yields_change.mp h
  exact hf s

theorem fail (e : ε) : Leads R (fail e : Action σ ε α) := fun _ _ _ h ↦ absurd h not_yields_fail

theorem ofExcept_bind {value : Except ε α} {f : α → Action σ ε β}
    (hf : ∀ a, value = .ok a → Leads R (f a)) : Leads R (ofExcept value >>= f) := by
  intro s b s' h
  obtain ⟨a, t, hvalue, hfb⟩ := yields_bind.mp h
  obtain ⟨ha, rfl⟩ := yields_ofExcept.mp hvalue
  exact hf a ha hfb

theorem state_bind {f : σ → Action σ ε β} (hf : ∀ s, Leads R (f s)) : Leads R (state >>= f) := by
  intro s b s' h
  obtain ⟨_, _, hstate, hfb⟩ := yields_bind.mp h
  obtain ⟨rfl, rfl⟩ := yields_state.mp hstate
  exact hf _ hfb

section Preorder

variable [IsPreorder σ R]

theorem pure (a : α) : Leads R (pure a : Action σ ε α) := by
  intro s b s' h
  obtain ⟨-, rfl⟩ := yields_pure.mp h
  exact refl_of R _

theorem note (event : Event) : Leads R (note event : Action σ ε Unit) := by
  intro s u s' h
  obtain rfl := yields_note.mp h
  exact refl_of R _

theorem lift (x : Traced ε α) : Leads R (lift x : Action σ ε α) := by
  intro s a s' h
  obtain ⟨-, rfl⟩ := yields_lift.mp h
  exact refl_of R _

theorem bind {x : Action σ ε α} {f : α → Action σ ε β} (hx : Leads R x) (hf : ∀ a, Leads R (f a)) :
    Leads R (x >>= f) := by
  intro s b s' h
  obtain ⟨a, t, hxa, hfb⟩ := yields_bind.mp h
  exact trans_of R (hx hxa) (hf a hfb)

end Preorder

end Leads

/-- Whether an action leaves related states behind, whether it ends well or not. -/
def Leaves (R : σ → σ → Prop) (x : Action σ ε α) : Prop := ∀ s, R s (x s).2

namespace Leaves

theorem change {f : σ → σ} (hf : ∀ s, R s (f s)) : Leaves R (change f : Action σ ε Unit) := hf

theorem state_bind {f : σ → Action σ ε β} (hf : ∀ s, Leaves R (f s)) : Leaves R (state >>= f) :=
  fun s ↦ hf s s

theorem within {τ ε' : Type} {S : τ → τ → Prop} {get : σ → τ} {set : τ → σ → σ} {error : ε' → ε}
    {x : Action τ ε' α} (hx : Leaves S x) (hset : ∀ s part, S (get s) part → R s (set part s)) :
    Leaves R (within get set error x) :=
  fun s ↦ hset s _ (hx (get s))

section Preorder

variable [IsPreorder σ R]

theorem pure (a : α) : Leaves R (pure a : Action σ ε α) := fun s ↦ refl_of R s

theorem note (event : Event) : Leaves R (note event : Action σ ε Unit) := fun s ↦ refl_of R s

theorem lift (x : Traced ε α) : Leaves R (lift x : Action σ ε α) := fun s ↦ refl_of R s

theorem fail (e : ε) : Leaves R (fail e : Action σ ε α) := fun s ↦ refl_of R s

theorem ofExcept_bind {value : Except ε α} {f : α → Action σ ε β}
    (hf : ∀ a, value = .ok a → Leaves R (f a)) : Leaves R (ofExcept value >>= f) := by
  cases value with
  | ok a => exact hf a rfl
  | error e => exact fun s ↦ refl_of R s

theorem bind {x : Action σ ε α} {f : α → Action σ ε β} (hx : Leaves R x)
    (hf : ∀ a, Leaves R (f a)) : Leaves R (x >>= f) := by
  intro s
  have hs := hx s
  show R s (Action.bind x f s).2
  unfold Action.bind
  generalize x s = outcome at hs
  obtain ⟨⟨result, journal⟩, t⟩ := outcome
  cases result with
  | error e => exact hs
  | ok a => exact trans_of R hs (hf a t)

end Preorder

end Leaves

end ReportPress.Action
