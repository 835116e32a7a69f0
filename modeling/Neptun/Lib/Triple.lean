import Neptun.Lib.Imperative
import Neptun.Lib.Slice

/-! Specifications of computations in `EStateM (Fault ε)`, as triples over a
state monad. `Triple Q F m s` says that `m`, run from `s`, returns a value `a` in
a state satisfying `Q a`, or ends with a fault `f` in a state satisfying `F f`.
The rules follow the combinators of the monad and of `Lib.Imperative`, so that a
method is specified from the specifications of the methods it calls, and the
states of the error paths are specified as well as the others. Two uses:
`Ensures` (no panic, and the error values in a given set) and `Keeps` (an
invariant that holds however the call ends). -/
namespace Neptun.Lib

section Triple

variable {ε ε' σ τ α β : Type}

def Triple (Q : α → σ → Prop) (F : Fault ε → σ → Prop) (m : EStateM (Fault ε) σ α) (s : σ) :
    Prop :=
  match m.run s with
  | .ok a s' => Q a s'
  | .error f s' => F f s'

variable {Q Q' : α → σ → Prop} {F F' : Fault ε → σ → Prop} {m m' : EStateM (Fault ε) σ α}
  {s : σ}

theorem Triple.of_ok (h : Triple Q F m s) {a : α} {s' : σ} (hrun : m.run s = .ok a s') :
    Q a s' := by
  simpa only [Triple, hrun] using h

theorem Triple.of_error (h : Triple Q F m s) {f : Fault ε} {s' : σ}
    (hrun : m.run s = .error f s') : F f s' := by
  simpa only [Triple, hrun] using h

theorem Triple.mono (h : Triple Q F m s) (hQ : ∀ a s', Q a s' → Q' a s')
    (hF : ∀ f s', F f s' → F' f s') : Triple Q' F' m s := by
  unfold Triple at h ⊢
  split at h
  · exact hQ _ _ h
  · exact hF _ _ h

theorem triple_of_ok {a : α} {s' : σ} (h : m.run s = .ok a s') (hq : Q a s') :
    Triple Q F m s := by
  simpa only [Triple, h] using hq

theorem triple_of_error {f : Fault ε} {s' : σ} (h : m.run s = .error f s') (hf : F f s') :
    Triple Q F m s := by
  simpa only [Triple, h] using hf

/-- A specification of the results alone, errors left free. -/
theorem triple_of_forall_ok (hq : ∀ a s', m.run s = .ok a s' → Q a s') :
    Triple Q (fun _ _ => True) m s := by
  unfold Triple
  split
  · exact hq _ _ ‹_›
  · trivial

/-- A specification that every outcome meets. -/
theorem triple_of_forall (hq : ∀ a s', Q a s') (hf : ∀ f s', F f s') : Triple Q F m s := by
  unfold Triple
  split
  · exact hq _ _
  · exact hf _ _

/-- Two computations that run alike meet the same specifications. -/
theorem triple_congr {s' : σ} (h : m.run s = m'.run s') : Triple Q F m s ↔ Triple Q F m' s' := by
  unfold Triple
  rw [h]

theorem triple_pure {a : α} (hq : Q a s) : Triple Q F (pure a) s :=
  triple_of_ok rfl hq

theorem triple_throw {f : Fault ε} (hf : F f s) : Triple Q F (throw f : EStateM _ σ α) s :=
  triple_of_error rfl hf

/-- The sequencing rule: the continuation is needed only after the results the
first part can return, which it may read from that part's run. -/
theorem triple_bind {R : α → σ → Prop} {x : EStateM (Fault ε) σ α}
    {f : α → EStateM (Fault ε) σ β} {Q : β → σ → Prop} (hx : Triple R F x s)
    (hf : ∀ a s', x.run s = .ok a s' → R a s' → Triple Q F (f a) s') :
    Triple Q F (x >>= f) s := by
  unfold Triple at hx ⊢
  rw [EStateM.run_bind]
  split at hx
  · rename_i a s' hrun
    simp only [hrun]
    exact hf a s' hrun hx
  · rename_i g s' hrun
    simp only [hrun]
    exact hx

theorem triple_bind_pure {x : EStateM (Fault ε) σ α} {g : α → β} {Q : β → σ → Prop}
    (hx : Triple (fun a => Q (g a)) F x s) : Triple Q F (x >>= fun a => pure (g a)) s :=
  triple_bind hx fun _ _ _ hq => triple_pure hq

/-- A computation whose value is mapped: the post-condition is read through the map. -/
theorem triple_map {x : EStateM (Fault ε) σ α} {g : α → β} {Q : β → σ → Prop} :
    Triple Q F (g <$> x) s ↔ Triple (fun a => Q (g a)) F x s := by
  unfold Triple
  rw [EStateM.run_map]
  cases x.run s <;> rfl

theorem triple_throw_bind {f : Fault ε} {k : α → EStateM (Fault ε) σ β} {Q : β → σ → Prop}
    (hf : F f s) : Triple Q F (throw f >>= k) s :=
  triple_of_error rfl hf

theorem triple_get_bind {k : σ → EStateM (Fault ε) σ α} (h : Triple Q F (k s) s) :
    Triple Q F (get >>= k) s := by
  simpa only [Triple, EStateM.run_bind, EStateM.run_get] using h

theorem triple_set_bind {k : PUnit → EStateM (Fault ε) σ α} {s' : σ}
    (h : Triple Q F (k ⟨⟩) s') : Triple Q F (set s' >>= k) s := by
  simpa only [Triple, EStateM.run_bind, EStateM.run_set] using h

theorem triple_set {Q : PUnit → σ → Prop} {s' : σ} (hq : Q ⟨⟩ s') :
    Triple Q F (set s' : EStateM (Fault ε) σ PUnit) s :=
  triple_of_ok rfl hq

theorem triple_modify_bind {g : σ → σ} {k : PUnit → EStateM (Fault ε) σ α}
    (h : Triple Q F (k ⟨⟩) (g s)) : Triple Q F (modify g >>= k) s := by
  simpa only [Triple, EStateM.run_bind, EStateM.run_modify] using h

theorem triple_modify {Q : PUnit → σ → Prop} {g : σ → σ} (hq : Q ⟨⟩ (g s)) :
    Triple Q F (modify g : EStateM (Fault ε) σ PUnit) s :=
  triple_of_ok rfl hq

/-- A step that does not touch the state: its errors end the call where it
stands, its value goes on to the rest. -/
theorem triple_liftExcept_bind {x : Except (Fault ε) α} {k : α → EStateM (Fault ε) σ β}
    {Q : β → σ → Prop} (herr : ∀ f, x = .error f → F f s)
    (hok : ∀ a, x = .ok a → Triple Q F (k a) s) : Triple Q F (liftExcept x >>= k) s := by
  cases x with
  | ok a => exact hok a rfl
  | error f => exact triple_of_error rfl (herr f rfl)

theorem Triple.and (h : Triple Q F m s) (h' : Triple Q' F' m s) :
    Triple (fun a s' => Q a s' ∧ Q' a s') (fun f s' => F f s' ∧ F' f s') m s := by
  unfold Triple at h h' ⊢
  split at h
  · rename_i a s' hrun
    simp only [hrun] at h' ⊢
    exact ⟨h, h'⟩
  · rename_i f s' hrun
    simp only [hrun] at h' ⊢
    exact ⟨h, h'⟩

/-- A method run on a field: its specification sees the field written back. -/
theorem triple_focus {view : σ → τ} {update : σ → τ → σ} {m : EStateM (Fault ε) τ α}
    (h : Triple (fun a t => Q a (update s t)) (fun f t => F f (update s t)) m (view s)) :
    Triple Q F (focus view update m) s := by
  unfold Triple at h ⊢
  rw [run_focus]
  split at h
  · rename_i a t hrun
    simpa only [hrun] using h
  · rename_i g t hrun
    simpa only [hrun] using h

/-- A method run on a local value: the state is the one it started from. -/
theorem triple_onLocal {t : τ} {m : EStateM (Fault ε) τ α} {Q : α × τ → σ → Prop}
    (h : Triple (fun a t' => Q (a, t') s) (fun f _ => F f s) m t) :
    Triple Q F (onLocal t m : EStateM (Fault ε) σ (α × τ)) s := by
  unfold Triple at h ⊢
  rw [run_onLocal]
  split at h
  · rename_i a t' hrun
    simpa only [hrun] using h
  · rename_i g t' hrun
    simpa only [hrun] using h

/-- A caught computation: its error values become results, its panics and loops
stay faults. -/
theorem triple_attempt {Q : Except ε α → σ → Prop} {F : Fault ε' → σ → Prop}
    (h : Triple (fun a => Q (.ok a))
      (fun f s' => match f with
        | .err e => Q (.error e) s'
        | .panic => F .panic s'
        | .diverge => F .diverge s') m s) :
    Triple Q F (attempt m) s := by
  unfold Triple at h ⊢
  rw [run_attempt]
  split at h
  · rename_i a s' hrun
    simpa only [hrun] using h
  · rename_i g s' hrun
    rcases g with e | _ | _ <;> simpa only [hrun] using h

/-- Mapping the faults, as `map_err` does on the error values. -/
theorem triple_adaptExcept {g : Fault ε → Fault ε'} {F : Fault ε' → σ → Prop}
    (h : Triple Q (fun f => F (g f)) m s) : Triple Q F (EStateM.adaptExcept g m) s := by
  unfold Triple at h ⊢
  simp only [EStateM.run, EStateM.adaptExcept] at h ⊢
  split at h
  · rename_i a s' hrun
    simpa only [hrun] using h
  · rename_i f s' hrun
    simpa only [hrun] using h

/-! The slice operations of `Lib.Slice` in a state monad read no state: they are
lifted `Except` values. -/

theorem orPanic_eq_liftExcept (x : Option α) :
    (orPanic x : EStateM (Fault ε) σ α) = liftExcept (orPanic x : Except (Fault ε) α) := by
  cases x <;> rfl

theorem splitAt_eq_liftExcept (xs : List α) (n : Nat) :
    (splitAt xs n : EStateM (Fault ε) σ _) = liftExcept (splitAt xs n : Except (Fault ε) _) :=
  orPanic_eq_liftExcept _

theorem copyFromSlice_eq_liftExcept (dst src : List α) :
    (copyFromSlice dst src : EStateM (Fault ε) σ _) =
      liftExcept (copyFromSlice dst src : Except (Fault ε) _) := by
  unfold copyFromSlice
  split <;> rfl

/-- A copy between slices: a panic unless the lengths agree, and then the rest on
the source. -/
theorem triple_copyFromSlice_bind {dst src : List α} {k : List α → EStateM (Fault ε) σ β}
    {Q : β → σ → Prop} (hpanic : dst.length ≠ src.length → F .panic s)
    (hk : dst.length = src.length → Triple Q F (k src) s) :
    Triple Q F (copyFromSlice dst src >>= k) s := by
  unfold copyFromSlice
  split
  · rename_i hlen
    exact hk hlen
  · rename_i hlen
    exact triple_of_error rfl (hpanic hlen)

end Triple

section Ensures

variable {ε σ α : Type}

/-- A fault that is not a panic: a loop that does not exit, or an error value in `E`. -/
def Benign (E : ε → Prop) (f : Fault ε) : Prop := f = .diverge ∨ ∃ e, f = .err e ∧ E e

/-- `m` does not panic from `s`; its error values are in `E`, its results in `Q`. -/
abbrev Ensures (E : ε → Prop) (Q : α → σ → Prop) (m : EStateM (Fault ε) σ α) (s : σ) : Prop :=
  Triple Q (fun f _ => Benign E f) m s

/-- `m` does not panic from `s`, and its error values are in `E`. -/
abbrev Raises (E : ε → Prop) (m : EStateM (Fault ε) σ α) (s : σ) : Prop :=
  Ensures E (fun _ _ => True) m s

theorem benign_diverge (E : ε → Prop) : Benign E .diverge := .inl rfl

theorem benign_err {E : ε → Prop} {e : ε} (he : E e) : Benign E (.err e) := .inr ⟨e, rfl, he⟩

theorem Benign.mono {E E' : ε → Prop} {f : Fault ε} (h : Benign E f) (hE : ∀ e, E e → E' e) :
    Benign E' f := by
  rcases h with rfl | ⟨e, rfl, he⟩
  · exact benign_diverge E'
  · exact benign_err (hE e he)

theorem Ensures.not_panic {E : ε → Prop} {Q : α → σ → Prop} {m : EStateM (Fault ε) σ α} {s : σ}
    (h : Ensures E Q m s) (s' : σ) : m.run s ≠ .error .panic s' := by
  intro hrun
  rcases h.of_error hrun with h | ⟨e, h, -⟩ <;> cases h

/-- An `Except` value that is not a panic, and whose error values are in `E`. -/
def ExceptRaises (E : ε → Prop) (x : Except (Fault ε) α) : Prop :=
  ∀ f, x = .error f → Benign E f

theorem exceptRaises_ok {E : ε → Prop} (a : α) : ExceptRaises E (.ok a : Except (Fault ε) α) := by
  intro f h
  cases h

theorem exceptRaises_err {E : ε → Prop} {e : ε} (he : E e) :
    ExceptRaises E (.error (.err e) : Except (Fault ε) α) := by
  intro f h
  cases h
  exact benign_err he

theorem ExceptRaises.bind {β : Type} {E : ε → Prop} {x : Except (Fault ε) α}
    {k : α → Except (Fault ε) β} (hx : ExceptRaises E x) (hk : ∀ a, x = .ok a → ExceptRaises E (k a)) :
    ExceptRaises E (x >>= k) := by
  cases x with
  | ok a => exact hk a rfl
  | error f =>
    intro g hg
    cases hg
    exact hx f rfl

/-- A caught computation that does not panic: what it returns is a result in `Q`,
or an error value in `E`. -/
theorem Ensures.attempt {ε' : Type} {E : ε → Prop} {E' : ε' → Prop} {Q : α → σ → Prop}
    {m : EStateM (Fault ε) σ α} {s : σ} (h : Ensures E Q m s) :
    Ensures E' (fun r s' => (∀ a, r = .ok a → Q a s') ∧ ∀ e, r = .error e → E e)
      (attempt m : EStateM (Fault ε') σ (Except ε α)) s := by
  apply triple_attempt
  refine h.mono (fun a s' hq => ⟨fun a' ha => ?_, fun e he => ?_⟩) fun f s' hf => ?_
  · cases ha
    exact hq
  · cases he
  · -- an error value is caught as a result; a loop that does not exit stays a fault
    rcases hf with rfl | ⟨e, rfl, he⟩
    · exact benign_diverge E'
    · refine ⟨fun _ ha => ?_, fun _ he' => ?_⟩
      · cases ha
      · cases he'
        exact he

theorem Raises.attempt {ε' : Type} {E : ε → Prop} {E' : ε' → Prop} {m : EStateM (Fault ε) σ α}
    {s : σ} (h : Raises E m s) : Raises E' (attempt m : EStateM (Fault ε') σ (Except ε α)) s :=
  (Ensures.attempt h).mono (fun _ _ _ => trivial) fun _ _ hf => hf

end Ensures

/-- `I` holds after `m` run from `s`, whether it returns or fails. -/
abbrev Keeps {ε σ α : Type} (I : σ → Prop) (m : EStateM (Fault ε) σ α) (s : σ) : Prop :=
  Triple (fun _ => I) (fun _ => I) m s

/-- A method run on a field keeps what every write-back of the field keeps. -/
theorem keeps_focus {ε σ τ α : Type} {I : σ → Prop} {view : σ → τ} {update : σ → τ → σ}
    {m : EStateM (Fault ε) τ α} {s : σ} (h : ∀ x, I (update s x)) :
    Keeps I (focus view update m) s :=
  triple_focus (triple_of_forall (fun _ x => h x) fun _ x => h x)

/-- A caught computation keeps what the computation keeps. -/
theorem Keeps.attempt {ε ε' σ α : Type} {I : σ → Prop} {m : EStateM (Fault ε) σ α} {s : σ}
    (h : Keeps I m s) : Keeps I (attempt m : EStateM (Fault ε') σ (Except ε α)) s :=
  triple_attempt (h.mono (fun _ _ hi => hi) fun f _ hi => by cases f <;> exact hi)

/-- The loop rule over the passes made: a loop over `xs` from a state with `I done`
ends in one with `I (done ++ xs)` when each pass takes `I done` to `I (done ++ [x])`;
its faults are the passes'. -/
theorem triple_forM {ε σ α : Type} {F : Fault ε → σ → Prop} {I : List α → σ → Prop}
    {f : α → EStateM (Fault ε) σ PUnit} (xs : List α)
    (hf : ∀ done x s, x ∈ xs → I done s → Triple (fun _ => I (done ++ [x])) F (f x) s) :
    ∀ done s, I done s → Triple (fun _ => I (done ++ xs)) F (xs.forM f) s := by
  induction xs with
  | nil => exact fun done s hs => triple_pure (by simpa using hs)
  | cons x xs ih =>
    intro done s hs
    show Triple _ F (f x >>= fun _ => xs.forM f) s
    refine triple_bind (hf done x s List.mem_cons_self hs) fun _ s' _ hs' => ?_
    simpa using ih (fun done y s hy => hf done y s (List.mem_cons_of_mem x hy)) (done ++ [x]) s' hs'

/-- The loop rule: a loop over a list keeps what each of its passes keeps. -/
theorem keeps_forM {ε σ α : Type} {I : σ → Prop} {f : α → EStateM (Fault ε) σ PUnit}
    (hf : ∀ s, I s → ∀ x, Keeps I (f x) s) : ∀ (xs : List α) s, I s → Keeps I (xs.forM f) s :=
  fun xs s hs => triple_forM (I := fun _ => I) xs (fun _ x s _ hs => hf s hs x) [] s hs

end Neptun.Lib
