import Mathlib

/-! Loops, aborts and fields of imperative code, as total functions.
A `while` loop runs on an explicit fuel; running out of fuel is the loop not
exiting. The invariant rule below turns a variant into enough fuel. A method
called on one field of a larger state runs through `focus`. -/
namespace Neptun.Lib

/-- How a call ends when it does not return: an error value, a panic, or a loop
that never exits. -/
inductive Fault (ε : Type) where
  | err (e : ε)
  | panic
  | diverge
  deriving DecidableEq, Repr

/-- `while cond { body }` for at most `fuel` iterations; `none` when the fuel runs out. -/
def loopWhile {σ : Type} (cond : σ → Bool) (body : σ → σ) : Nat → σ → Option σ
  | 0, _ => none
  | fuel + 1, s => if cond s then loopWhile cond body fuel (body s) else some s

section Rules

variable {σ : Type} {cond : σ → Bool} {body : σ → σ}

@[simp] theorem loopWhile_exit {fuel : Nat} {s : σ} (h : cond s = false) :
    loopWhile cond body (fuel + 1) s = some s := by
  simp [loopWhile, h]

theorem loopWhile_iterate {fuel : Nat} {s : σ} (h : cond s = true) :
    loopWhile cond body (fuel + 1) s = loopWhile cond body fuel (body s) := by
  simp [loopWhile, h]

/-- The invariant rule: an invariant kept by the body, and a variant the body
decreases, give an exit state within any fuel above the variant. -/
theorem loopWhile_spec (inv : σ → Prop) (variant : σ → Nat)
    (step : ∀ s, inv s → cond s = true → inv (body s) ∧ variant (body s) < variant s) :
    ∀ fuel s, inv s → variant s < fuel →
      ∃ t, loopWhile cond body fuel s = some t ∧ inv t ∧ cond t = false := by
  intro fuel
  induction fuel with
  | zero => intro s _ hv; omega
  | succ fuel ih =>
    intro s hs hv
    cases hc : cond s with
    | false => exact ⟨s, loopWhile_exit hc, hs, hc⟩
    | true =>
      obtain ⟨hs', hlt⟩ := step s hs hc
      rw [loopWhile_iterate hc]
      exact ih (body s) hs' (by omega)

end Rules

/-- Run a computation on one field of a larger state, as a method called on that
field: the field's final value is written back whether it returns or fails. -/
def focus {ε σ τ α : Type} (view : σ → τ) (update : σ → τ → σ) (m : EStateM ε τ α) :
    EStateM ε σ α := fun s =>
  match m (view s) with
  | .ok a t => .ok a (update s t)
  | .error e t => .error e (update s t)

@[simp] theorem run_focus {ε σ τ α : Type} (view : σ → τ) (update : σ → τ → σ)
    (m : EStateM ε τ α) (s : σ) :
    (focus view update m).run s =
      match m.run (view s) with
      | .ok a t => .ok a (update s t)
      | .error e t => .error e (update s t) := rfl

/-- Catch an error value as a result, as a `match` on a `Result` does; a panic or a
loop that never exits still ends the call. -/
def attempt {ε ε' σ α : Type} (m : EStateM (Fault ε) σ α) : EStateM (Fault ε') σ (Except ε α) :=
  fun s =>
    match m s with
    | .ok a s' => .ok (.ok a) s'
    | .error (.err e) s' => .ok (.error e) s'
    | .error .panic s' => .error .panic s'
    | .error .diverge s' => .error .diverge s'

@[simp] theorem run_attempt {ε ε' σ α : Type} (m : EStateM (Fault ε) σ α) (s : σ) :
    (attempt m : EStateM (Fault ε') σ (Except ε α)).run s =
      match m.run s with
      | .ok a s' => .ok (.ok a) s'
      | .error (.err e) s' => .ok (.error e) s'
      | .error .panic s' => .error .panic s'
      | .error .diverge s' => .error .diverge s' := rfl

/-- Run a method on a local value, which is dropped if the method fails. -/
def onLocal {ε σ τ α : Type} (t : τ) (m : EStateM ε τ α) : EStateM ε σ (α × τ) := fun s =>
  match m.run t with
  | .ok a t' => .ok (a, t') s
  | .error e _ => .error e s

@[simp] theorem run_onLocal {ε σ τ α : Type} (t : τ) (m : EStateM ε τ α) (s : σ) :
    (onLocal t m).run s =
      match m.run t with
      | .ok a t' => .ok (a, t') s
      | .error e _ => .error e s := rfl

/-- `discard`: the value is dropped, the state and the faults kept. -/
@[simp] theorem run_discard {ε σ α : Type} (m : EStateM ε σ α) (s : σ) :
    (discard m).run s =
      match m.run s with
      | .ok _ s' => .ok () s'
      | .error e s' => .error e s' := rfl

/-- A run that ends well ran its first part well: the inversion rule of bind. -/
theorem run_bind_ok {ε σ α β : Type} {x : EStateM ε σ α} {f : α → EStateM ε σ β} {s : σ}
    {b : β} {s' : σ} (h : (x >>= f).run s = .ok b s') :
    ∃ a s₁, x.run s = .ok a s₁ ∧ (f a).run s₁ = .ok b s' := by
  rw [EStateM.run_bind] at h
  split at h
  · exact ⟨_, _, ‹_›, h⟩
  · cases h

@[simp] theorem mapError_ok {ε ε' α : Type} (f : ε → ε') (a : α) :
    (Except.ok a : Except ε α).mapError f = .ok a := rfl

@[simp] theorem mapError_pure {ε ε' α : Type} (f : ε → ε') (a : α) :
    (pure a : Except ε α).mapError f = pure a := rfl

@[simp] theorem mapError_error {ε ε' α : Type} (f : ε → ε') (e : ε) :
    (Except.error e : Except ε α).mapError f = .error (f e) := rfl

@[simp] theorem liftExcept_ok {ε σ α : Type} (a : α) :
    (liftExcept (Except.ok a : Except ε α) : EStateM ε σ α) = pure a := rfl

@[simp] theorem liftExcept_pure {ε σ α : Type} (a : α) :
    (liftExcept (pure a : Except ε α) : EStateM ε σ α) = pure a := rfl

@[simp] theorem liftExcept_error {ε σ α : Type} (e : ε) :
    (liftExcept (Except.error e : Except ε α) : EStateM ε σ α) = throw e := rfl

theorem except_bind_eq {ε α β : Type} (x : Except ε α) (k : α → Except ε β) :
    x >>= k =
      match x with
      | .ok a => k a
      | .error e => .error e := by
  cases x <;> rfl

end Neptun.Lib
