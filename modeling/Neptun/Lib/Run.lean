import Neptun.Lib.Triple

/-! Runs of calls on an object that outlives them. Each call is a computation in
`EStateM (Fault ε)`, and the next call starts in the state the last one left,
whether it returned or failed: the owner of a field keeps the field after an
error. What every call keeps holds along the whole run. -/
namespace Neptun.Lib

variable {ε σ κ ρ α : Type}

/-- The state a call left, however it ended. -/
def stateOf : EStateM.Result ε σ α → σ
  | .ok _ s => s
  | .error _ s => s

/-- The results of the calls `cs`, made in turn from `s`. -/
def runCalls (call : κ → EStateM ε σ ρ) : List κ → σ → List (EStateM.Result ε σ ρ)
  | [], _ => []
  | c :: cs, s => (call c).run s :: runCalls call cs (stateOf ((call c).run s))

/-- The state after the calls `cs`, made in turn from `s`. -/
def afterCalls (call : κ → EStateM ε σ ρ) : List κ → σ → σ
  | [], s => s
  | c :: cs, s => afterCalls call cs (stateOf ((call c).run s))

/-- The number of calls of `cs`, made in turn from `s`, that pass `test` in the
state they start in. -/
def countCalls (call : κ → EStateM ε σ ρ) (test : κ → σ → Bool) : List κ → σ → Nat
  | [], _ => 0
  | c :: cs, s =>
    (if test c s then 1 else 0) + countCalls call test cs (stateOf ((call c).run s))

/-- Whether a call returned, rather than ending in a fault. -/
def returned : EStateM.Result ε σ α → Bool
  | .ok _ _ => true
  | .error _ _ => false

/-- The sum, over the calls of `cs` made in turn from `s` that return, of what `w`
gives for the call, the state it starts in and the value it returns. -/
def sumCalls {M : Type} [Zero M] [Add M] (call : κ → EStateM ε σ ρ) (w : κ → σ → ρ → M) :
    List κ → σ → M
  | [], _ => 0
  | c :: cs, s =>
    (match (call c).run s with
      | .ok r _ => w c s r
      | .error _ _ => 0) + sumCalls call w cs (stateOf ((call c).run s))

@[simp] theorem stateOf_ok (a : α) (s : σ) : stateOf (.ok a s : EStateM.Result ε σ α) = s := rfl

@[simp] theorem stateOf_error (e : ε) (s : σ) :
    stateOf (.error e s : EStateM.Result ε σ α) = s := rfl

theorem keeps_iff {I : σ → Prop} {m : EStateM (Fault ε) σ α} {s : σ} :
    Keeps I m s ↔ I (stateOf (m.run s)) := by
  unfold Keeps Triple
  split <;> rename_i hrun <;> rw [hrun] <;> rfl

/-- A continuation that returns without touching the state leaves the state the
first part left. -/
theorem stateOf_run_bind {β : Type} {m : EStateM ε σ α} {k : α → EStateM ε σ β} {s : σ}
    (hk : ∀ a s', stateOf ((k a).run s') = s') : stateOf ((m >>= k).run s) = stateOf (m.run s) := by
  rw [EStateM.run_bind]
  cases m.run s with
  | ok a s' => exact hk a s'
  | error e s' => rfl

/-- `m` run from `s` ends in `s'` with a result or with an error value, and its
caller goes on from `s'`. A panic ends the thread instead. -/
def EndsIn (m : EStateM (Fault ε) σ α) (s s' : σ) : Prop :=
  (∃ a, m.run s = .ok a s') ∨ ∃ e, m.run s = .error (.err e) s'

/-- `I` holds wherever the caller of `m` goes on: after a result, or after an
error value. -/
abbrev Resumes (I : σ → Prop) (m : EStateM (Fault ε) σ α) (s : σ) : Prop :=
  Triple (fun _ => I) (fun f s' => (∃ e, f = .err e) → I s') m s

theorem Resumes.endsIn {I : σ → Prop} {m : EStateM (Fault ε) σ α} {s s' : σ}
    (h : Resumes I m s) (he : EndsIn m s s') : I s' := by
  rcases he with ⟨a, hrun⟩ | ⟨e, hrun⟩
  · exact h.of_ok hrun
  · exact h.of_error hrun ⟨e, rfl⟩

theorem Keeps.resumes {I : σ → Prop} {m : EStateM (Fault ε) σ α} {s : σ} (h : Keeps I m s) :
    Resumes I m s :=
  h.mono (fun _ _ hi => hi) fun _ _ hi _ => hi

/-- The loop rule of `Resumes`: a loop over a list goes on where each of its passes
goes on. -/
theorem resumes_forM {I : σ → Prop} {f : α → EStateM (Fault ε) σ PUnit}
    (hf : ∀ s, I s → ∀ x, Resumes I (f x) s) : ∀ (xs : List α) s, I s → Resumes I (xs.forM f) s := by
  intro xs
  induction xs with
  | nil => exact fun s hs => triple_pure hs
  | cons x xs ih =>
    intro s hs
    show Resumes I (f x >>= fun _ => xs.forM f) s
    exact triple_bind (hf s hs x) fun _ s' _ hs' => ih s' hs'

/-- A computation that ends where a second one, run on what it returns, does. -/
theorem EndsIn.bind_pure {β : Type} {m : EStateM (Fault ε) σ α} {k : α → EStateM (Fault ε) σ β}
    {s s' : σ} (hk : ∀ a s₁, ∃ b, (k a).run s₁ = .ok b s₁) (h : EndsIn m s s') :
    EndsIn (m >>= k) s s' := by
  rcases h with ⟨a, hrun⟩ | ⟨e, hrun⟩
  · obtain ⟨b, hb⟩ := hk a s'
    exact .inl ⟨b, by rw [EStateM.run_bind, hrun]; exact hb⟩
  · exact .inr ⟨e, by rw [EStateM.run_bind, hrun]⟩

section Steps

variable {β : Type} {r : σ → σ → Prop}

/-- Wherever the caller of `m` goes on, at a state that steps of `r` reach from `s`:
the relational form of `Resumes`, whose rules chain the steps of the parts of a
computation. -/
abbrev Steps (r : σ → σ → Prop) (m : EStateM (Fault ε) σ α) (s : σ) : Prop :=
  Resumes (Relation.ReflTransGen r s) m s

theorem steps_pure (a : α) (s : σ) : Steps r (pure a : EStateM (Fault ε) σ α) s :=
  triple_pure .refl

theorem steps_throw (f : Fault ε) (s : σ) : Steps r (throw f : EStateM (Fault ε) σ α) s :=
  triple_throw fun _ => .refl

theorem steps_liftExcept (x : Except (Fault ε) α) (s : σ) :
    Steps r (liftExcept x : EStateM (Fault ε) σ α) s := by
  cases x with
  | ok a => exact steps_pure a s
  | error f => exact steps_throw f s

/-- The sequencing rule: the rest goes on from a state the first part reached. -/
theorem Steps.bind {m : EStateM (Fault ε) σ α} {k : α → EStateM (Fault ε) σ β} {s : σ}
    (hm : Steps r m s) (hk : ∀ a s', Relation.ReflTransGen r s s' → Steps r (k a) s') :
    Steps r (m >>= k) s :=
  triple_bind hm fun a s' _ h => (hk a s' h).mono (fun _ _ h' => h.trans h')
    fun _ _ h' he => h.trans (h' he)

theorem steps_modify_bind {g : σ → σ} {k : PUnit → EStateM (Fault ε) σ α} {s : σ}
    (hg : Relation.ReflTransGen r s (g s)) (hk : Steps r (k ⟨⟩) (g s)) :
    Steps r (modify g >>= k) s :=
  triple_modify_bind (hk.mono (fun _ _ h => hg.trans h) fun _ _ h he => hg.trans (h he))

theorem steps_set_bind {k : PUnit → EStateM (Fault ε) σ α} {s s' : σ}
    (hs : Relation.ReflTransGen r s s') (hk : Steps r (k ⟨⟩) s') : Steps r (set s' >>= k) s :=
  triple_set_bind (hk.mono (fun _ _ h => hs.trans h) fun _ _ h he => hs.trans (h he))

/-- A caught computation goes on wherever the computation ends with a value or an
error value. -/
theorem Steps.attempt {ε' : Type} {m : EStateM (Fault ε) σ α} {s : σ} (h : Steps r m s) :
    Steps r (attempt m : EStateM (Fault ε') σ (Except ε α)) s :=
  triple_attempt (h.mono (fun _ _ h => h) fun f _ h => by
    cases f with
    | err e => exact h ⟨e, rfl⟩
    | panic => exact fun ⟨_, he⟩ => by cases he
    | diverge => exact fun ⟨_, he⟩ => by cases he)

/-- A method run on a field goes on by the steps that write the field back. -/
theorem steps_focus {τ : Type} {view : σ → τ} {update : σ → τ → σ} {m : EStateM (Fault ε) τ α}
    {s : σ} (h : ∀ x, Relation.ReflTransGen r s (update s x)) : Steps r (focus view update m) s :=
  triple_focus (triple_of_forall (fun _ x => h x) fun _ x _ => h x)

/-- A method run on a local value leaves the state where it was. -/
theorem steps_onLocal {τ : Type} (t : τ) (m : EStateM (Fault ε) τ α) (s : σ) :
    Steps r (onLocal t m : EStateM (Fault ε) σ (α × τ)) s :=
  triple_onLocal (triple_of_forall (fun _ _ => .refl) fun _ _ _ => .refl)

/-- The sequencing rule of panics: the rest is needed not to panic only from the
states the first part can go on from. -/
theorem Raises.bind_steps {E : ε → Prop} {m : EStateM (Fault ε) σ α}
    {k : α → EStateM (Fault ε) σ β} {s : σ} (hm : Steps r m s) (hr : Raises E m s)
    (hk : ∀ a s', Relation.ReflTransGen r s s' → Raises E (k a) s') : Raises E (m >>= k) s :=
  triple_bind ((hm.and hr).mono (fun _ _ h => h.1) fun _ _ h => h.2) fun a s' _ h => hk a s' h

/-- Over a run of calls that each go on by steps of `r`, the state moves by steps
of `r`. -/
theorem reflTransGen_of_steps {κ ρ : Type} {call : κ → EStateM (Fault ε) σ ρ}
    (h : ∀ c s, Steps r (call c) s) {s s' : σ}
    (hrun : Relation.ReflTransGen (fun s s' => ∃ c, EndsIn (call c) s s') s s') :
    Relation.ReflTransGen r s s' :=
  hrun.lift' id fun _ _ ⟨c, he⟩ => (h c _).endsIn he

/-- The invariant rule of reachability: what every step keeps holds wherever the
steps lead. -/
theorem invariant_of_reflTransGen {I : σ → Prop} (hstep : ∀ s s', r s s' → I s → I s') {s s' : σ}
    (h : Relation.ReflTransGen r s s') (hs : I s) : I s' := by
  induction h with
  | refl => exact hs
  | tail _ hr ih => exact hstep _ _ hr ih

end Steps

/-- `while let` on what a call returns: call `call` while what it returns meets
`cont`, the `i`-th call given `xs[i]`. The number of calls made, or `none` when
`xs` runs out before a call returns what ends the loop. -/
def callWhile (call : κ → EStateM ε σ α) (cont : α → Bool) : List κ → EStateM ε σ (Option Nat)
  | [] => pure none
  | x :: xs => do
    let a ← call x
    if cont a then
      let n ← callWhile call cont xs
      pure (n.map (· + 1))
    else pure (some 1)

/-- The variant rule of `callWhile`: a measure that every call going on lowers
bounds the number of calls by one more than its value, and the loop ends with
the faults of its calls. -/
theorem callWhile_bound {call : κ → EStateM (Fault ε) σ α} {cont : α → Bool}
    {F : Fault ε → σ → Prop} (μ : σ → Nat)
    (hcall : ∀ x s, Triple (fun a s' => cont a = true → μ s' < μ s) F (call x) s) :
    ∀ xs s, μ s < xs.length →
      Triple (fun r _ => ∃ k, r = some k ∧ k ≤ μ s + 1) F (callWhile call cont xs) s := by
  intro xs
  induction xs with
  | nil => intro s hs; cases hs
  | cons x xs ih =>
    intro s hs
    refine triple_bind (hcall x s) fun a s' _ hdec => ?_
    by_cases hc : cont a = true
    · -- the call goes on: the rest of the loop starts lower
      have hlt := hdec hc
      simp only [hc, if_true]
      refine triple_bind (ih s' (by simp at hs; omega)) fun n _ _ ⟨k, hk, hle⟩ => ?_
      exact triple_pure ⟨k + 1, by rw [hk]; rfl, by omega⟩
    · simp only [hc, Bool.false_eq_true, if_false]
      exact triple_pure ⟨1, rfl, by omega⟩

section Invariant

variable {call : κ → EStateM (Fault ε) σ ρ} {I : σ → Prop} {P : ρ → Prop}

/-- The invariant rule of runs: an invariant that every call keeps, and that
bounds what the call returns, holds after every call of a run and of every value
returned. -/
theorem runCalls_invariant
    (hcall : ∀ c s, I s → Triple (fun r s' => P r ∧ I s') (fun _ => I) (call c) s) :
    ∀ cs s, I s → ∀ x ∈ runCalls call cs s, I (stateOf x) ∧ ∀ r s', x = .ok r s' → P r := by
  intro cs
  induction cs with
  | nil => simp [runCalls]
  | cons c cs ih =>
    intro s hs x hx
    have hstep := hcall c s hs
    have hnext : I (stateOf ((call c).run s)) := keeps_iff.mp (hstep.mono (fun _ _ h => h.2)
      (fun _ _ h => h))
    rcases List.mem_cons.mp hx with rfl | hx
    · refine ⟨hnext, fun r s' hrun => ?_⟩
      exact (hstep.of_ok hrun).1
    · exact ih _ hnext x hx

/-- The counting rule of runs: a counter `μ` that no call lowers and that each call
raises by at most one, while it is below `K` and the invariant `I` holds, and that
every call passing `test` raises from below `L`. Along a run that keeps it below `K`,
at most `L - μ s` calls pass. -/
theorem countCalls_le {test : κ → σ → Bool} (μ : σ → Nat) (L K : Nat)
    (hstep : ∀ c s, I s → μ s < K →
      I (stateOf ((call c).run s)) ∧ μ s ≤ μ (stateOf ((call c).run s)) ∧
      μ (stateOf ((call c).run s)) ≤ μ s + 1 ∧
      (test c s = true → μ s < L ∧ μ (stateOf ((call c).run s)) = μ s + 1)) :
    ∀ cs s, I s → μ s + cs.length ≤ K → countCalls call test cs s ≤ L - μ s := by
  intro cs
  induction cs with
  | nil => intro s _ _; simp [countCalls]
  | cons c cs ih =>
    intro s hs hK
    obtain ⟨hI, hle, hsucc, htest⟩ := hstep c s hs (by simp at hK; omega)
    -- the rest of the run starts at most one higher, with one call fewer
    have hrest := ih _ hI (by simp at hK; omega)
    simp only [countCalls]
    by_cases ht : test c s = true
    · obtain ⟨hL, hup⟩ := htest ht
      simp only [ht, if_true]
      omega
    · simp only [ht, Bool.false_eq_true, if_false]
      omega

/-- The ledger rule of runs: a counter that each call raises, when it returns, by
what `w` gives for it ends a run in which every call returns raised by the sum. -/
theorem afterCalls_ledger {M : Type} [AddMonoid M] (μ : σ → M) (w : κ → σ → ρ → M)
    (hcall : ∀ c s, Triple (fun r s' => μ s' = μ s + w c s r) (fun _ _ => True) (call c) s) :
    ∀ cs s, (∀ x ∈ runCalls call cs s, returned x = true) →
      μ (afterCalls call cs s) = μ s + sumCalls call w cs s := by
  intro cs
  induction cs with
  | nil => intro s _; simp [afterCalls, sumCalls]
  | cons c cs ih =>
    intro s hret
    cases hrun : (call c).run s with
    | ok r s' =>
      have hstep := (hcall c s).of_ok hrun
      have hrest := ih s' fun x hx => hret x (by rw [runCalls, hrun]; exact List.mem_cons_of_mem _ hx)
      simp only [afterCalls, sumCalls, hrun, stateOf_ok, hrest, hstep, add_assoc]
    | error f s' =>
      have hthis := hret _ (by rw [runCalls, hrun]; exact List.mem_cons_self)
      simp [returned] at hthis

end Invariant

end Neptun.Lib
