import ReportPress.Journal.Event

/-!
# Work that keeps a journal

A `Traced` computation has a result, or a reason why there is none, and the events on the way to
either. An `Action` also changes a state, and the state it leaves behind stands when it fails: what
was done before the failure stays done.

The result of a sequence depends on the results of its parts only, never on their journals
(`Traced.result_bind`), and the journal of a sequence is the journals of its parts in order. Both
kinds of work obey the laws of monads, so a sequence may be cut anywhere.
-/

namespace ReportPress

/-- A result or an error, with the events on the way. -/
structure Traced (ε α : Type) where
  result : Except ε α
  journal : Journal

namespace Traced

variable {ε α β γ : Type}

def ofExcept (result : Except ε α) : Traced ε α := ⟨result, []⟩

def fail (e : ε) : Traced ε α := ⟨.error e, []⟩

def note (event : Event) : Traced ε Unit := ⟨.ok (), [event]⟩

/-- One computation after another; an error ends the sequence. -/
def bind (x : Traced ε α) (f : α → Traced ε β) : Traced ε β :=
  match x.result with
  | .error e => ⟨.error e, x.journal⟩
  | .ok a =>
    let next := f a
    ⟨next.result, x.journal ++ next.journal⟩

instance : Monad (Traced ε) where
  pure a := ofExcept (.ok a)
  bind := bind

def mapError {ε' : Type} (f : ε → ε') (x : Traced ε α) : Traced ε' α :=
  ⟨x.result.mapError f, x.journal⟩

/-- The lists that a computation yields for each item, one after the other. -/
def collect (f : α → Traced ε (List β)) : List α → Traced ε (List β)
  | [] => pure []
  | a :: rest => do
    let front ← f a
    let back ← collect f rest
    return front ++ back

@[simp] theorem result_pure (a : α) : (pure a : Traced ε α).result = .ok a := rfl

/-- Results compose without the journals. -/
theorem result_bind (x : Traced ε α) (f : α → Traced ε β) :
    (x >>= f).result = x.result.bind fun a ↦ (f a).result := by
  show (bind x f).result = _
  unfold bind
  cases x.result <;> rfl

/-! ## Laws -/

theorem ext {x y : Traced ε α} (hresult : x.result = y.result) (hjournal : x.journal = y.journal) :
    x = y := by
  obtain ⟨result, journal⟩ := x
  obtain rfl : result = y.result := hresult
  obtain rfl : journal = y.journal := hjournal
  rfl

theorem bind_pure (x : Traced ε α) : x.bind (ofExcept ∘ .ok) = x := by
  obtain ⟨result, journal⟩ := x
  cases result with
  | error e => rfl
  | ok a => exact ext rfl (List.append_nil journal)

theorem bind_assoc (x : Traced ε α) (f : α → Traced ε β) (g : β → Traced ε γ) :
    (x.bind f).bind g = x.bind fun a ↦ (f a).bind g := by
  obtain ⟨result, journal⟩ := x
  cases result with
  | error e => rfl
  | ok a =>
    simp only [bind]
    cases (f a).result with
    | error e => rfl
    | ok b => exact ext rfl (List.append_assoc ..)

instance : LawfulMonad (Traced ε) := LawfulMonad.mk' _ bind_pure (fun _ _ ↦ rfl) bind_assoc

end Traced

def Action (σ ε α : Type) : Type := σ → Traced ε α × σ

namespace Action

variable {σ ε α β γ : Type}

/-- One action after another, on the state that the first leaves; an error ends the sequence. -/
def bind (x : Action σ ε α) (f : α → Action σ ε β) : Action σ ε β := fun s ↦
  let (first, s) := x s
  match first.result with
  | .error e => (⟨.error e, first.journal⟩, s)
  | .ok a =>
    let (second, s) := f a s
    (⟨second.result, first.journal ++ second.journal⟩, s)

instance : Monad (Action σ ε) where
  pure a := fun s ↦ (pure a, s)
  bind := bind

def state : Action σ ε σ := fun s ↦ (pure s, s)

def change (f : σ → σ) : Action σ ε Unit := fun s ↦ (pure (), f s)

def fail (e : ε) : Action σ ε α := fun s ↦ (Traced.fail e, s)

def note (event : Event) : Action σ ε Unit := fun s ↦ (Traced.note event, s)

def lift (x : Traced ε α) : Action σ ε α := fun s ↦ (x, s)

def ofExcept (result : Except ε α) : Action σ ε α := lift (Traced.ofExcept result)

/-- Work on a part of the state. -/
def within {τ ε' : Type} (get : σ → τ) (set : τ → σ → σ) (error : ε' → ε) (x : Action τ ε' α) :
    Action σ ε α := fun s ↦
  let (outcome, part) := x (get s)
  (outcome.mapError error, set part s)

/-! ## Laws -/

theorem bind_pure (x : Action σ ε α) : x.bind (fun a s ↦ (pure a, s)) = x := by
  funext s
  unfold bind
  rcases x s with ⟨⟨result, journal⟩, s'⟩
  cases result with
  | error e => rfl
  | ok a => exact Prod.ext (Traced.ext rfl (List.append_nil journal)) rfl

theorem bind_assoc (x : Action σ ε α) (f : α → Action σ ε β) (g : β → Action σ ε γ) :
    (x.bind f).bind g = x.bind fun a ↦ (f a).bind g := by
  funext s
  unfold bind
  rcases x s with ⟨⟨result, journal⟩, s'⟩
  cases result with
  | error e => rfl
  | ok a =>
    dsimp only
    rcases f a s' with ⟨⟨result', journal'⟩, s''⟩
    cases result' with
    | error e => rfl
    | ok b => exact Prod.ext (Traced.ext rfl (List.append_assoc ..)) rfl

instance : LawfulMonad (Action σ ε) := LawfulMonad.mk' _ bind_pure (fun _ _ ↦ rfl) bind_assoc

end Action

end ReportPress
