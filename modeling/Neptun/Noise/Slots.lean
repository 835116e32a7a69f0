import Neptun.Noise.Routing

/-! The two slots of a handshake. An initiation goes into `state` and pushes what
was there into `previous`, so that a response to either of the last two
initiations is accepted, and `receive_handshake_response` takes the initiation it
answers out of its slot. Along every run of the calls the tunnel makes on its
handshake, two initiations held at once have different indices: a response names
one slot, and a response accepted once is refused when it comes again.

A run goes on after a call that returned or failed with an error value. A panic
ends the thread that holds the tunnel; the only one an initiation can reach after
drawing its index is the timestamp's, past `u64::MAX` seconds. -/
namespace Neptun.Noise

open Lib

theorem HandshakeState.sentTo_eq_some {st : HandshakeState} {i : UInt32}
    {s : HandshakeInitSentState} : st.sentTo i = some s ↔ st = .initSent s ∧ s.localIndex = i := by
  cases st with
  | initSent s' =>
    unfold HandshakeState.sentTo
    by_cases hi : s'.localIndex = i
    · subst hi
      simp only [if_true, Option.some.injEq, HandshakeState.initSent.injEq]
      constructor
      · rintro rfl
        exact ⟨rfl, rfl⟩
      · rintro ⟨rfl, -⟩
        rfl
    · simp only [hi, if_false, HandshakeState.initSent.injEq]
      constructor
      · intro h
        cases h
      · rintro ⟨rfl, hs⟩
        exact absurd hs hi
  | _ => simp [HandshakeState.sentTo]

theorem TimeStamper.stamp_error {t : TimeStamper} {now : Nat} {e : Fault WireGuardError}
    (h : t.stamp now = .error e) : e = .panic := by
  unfold TimeStamper.stamp at h
  dsimp only at h
  split at h
  · cases h
    rfl
  · cases h

namespace Handshake

variable {B : Backend}

/-- What the slots hold between calls: an initiation in `state` carries the last
index drawn, and the initiations in the two slots carry different indices. -/
structure Slots (h : Handshake) : Prop where
  current : ∀ s, h.state = .initSent s → s.localIndex = h.nextIndex
  distinct : ∀ s s', h.state = .initSent s → h.previous = .initSent s' →
    s.localIndex ≠ s'.localIndex

theorem Slots.congr {h h' : Handshake} (hS : Slots h) (hs : h'.state = h.state)
    (hp : h'.previous = h.previous) (hn : h'.nextIndex = h.nextIndex) : Slots h' where
  current s h1 := hn ▸ hS.current s (hs ▸ h1)
  distinct s s' h1 h2 := hS.distinct s s' (hs ▸ h1) (hp ▸ h2)

theorem slots_of_state {h : Handshake} (hs : ∀ s, h.state ≠ .initSent s) : Slots h where
  current s h1 := absurd h1 (hs s)
  distinct s _ h1 _ := absurd h1 (hs s)

theorem Slots.clear_previous {h : Handshake} (hS : Slots h) (rtt : Option UInt32) :
    Slots { h with lastRtt := rtt, previous := .none } where
  current := hS.current
  distinct _ _ _ h2 := by cases h2

/-- A new initiation: the index just drawn goes into `state`, and the initiation
there before, of the last index, into `previous`. -/
theorem Slots.initiate {h : Handshake} (hS : Slots h) (s : HandshakeInitSentState)
    (hs : s.localIndex = indexAfter h.nextIndex) (c : Cookies) :
    Slots { h with
      nextIndex := indexAfter h.nextIndex
      previous := h.state
      state := .initSent s
      cookies := c } where
  current s' h1 := by
    cases h1
    exact hs
  distinct s₁ s₂ h1 h2 := by
    cases h1
    rw [hs, hS.current s₂ h2]
    exact indexAfter_ne h.nextIndex

theorem slots_new {staticPrivate staticPublic peerStaticPublic : Key} {globalIdx : UInt32}
    {presharedKey : Option Key} {systemTime : Int} {now : Nat} {h : Handshake}
    (hnew : Handshake.new B staticPrivate staticPublic peerStaticPublic globalIdx presharedKey
      systemTime now = .ok h) : Slots h := by
  unfold Handshake.new at hnew
  cases hs : TimeStamper.new systemTime now with
  | error e =>
    rw [hs] at hnew
    cases hnew
  | ok stamper =>
    rw [hs] at hnew
    cases hnew
    exact slots_of_state fun _ h1 => by cases h1

section Calls

variable {h : Handshake}

theorem formatHandshakeInitiation_small (eph : Key) (now : Nat) {dst : List UInt8}
    (hdst : dst.length < handshakeInitSz) :
    (formatHandshakeInitiation B eph now dst).run h = .error (.err .destinationBufferTooSmall) h := by
  simp only [formatHandshakeInitiation, hdst, if_true]
  rfl

/-- An initiation fails before it writes anything, panics on the timestamp, or
writes the slots as `Slots.initiate` does. -/
theorem formatHandshakeInitiation_slots (hB : B.Lawful) (hS : Slots h) (eph : Key) (now : Nat)
    (dst : List UInt8) : Resumes Slots (formatHandshakeInitiation B eph now dst) h := by
  by_cases hdst : dst.length < handshakeInitSz
  · exact triple_of_error (formatHandshakeInitiation_small eph now hdst) fun _ => hS
  cases hts : h.stamper.stamp now with
  | error e =>
    refine triple_of_error
      (formatHandshakeInitiation_run_of_error h eph now dst (Nat.not_lt.mp hdst) hts) ?_
    rintro ⟨e', he'⟩
    cases (TimeStamper.stamp_error hts).symm.trans he'
  | ok ts =>
    exact triple_of_ok (formatHandshakeInitiation_run hB h eph now dst (Nat.not_lt.mp hdst) hts)
      (hS.initiate _ rfl _)

theorem receiveHandshakeInitialization_slots (hS : Slots h) (eph : Key) (p : HandshakeInit)
    (dst : List UInt8) : Keeps Slots (receiveHandshakeInitialization B eph p dst) h :=
  -- the initiation received is written over `state`, and the response empties it
  receiveHandshakeInitialization_keeps h eph p dst hS fun _ _ _ _ _ =>
    formatHandshakeResponse_keeps _ eph dst (slots_of_state fun _ h1 => by cases h1)
      (slots_of_state fun _ h1 => by cases h1) (slots_of_state fun _ h1 => by cases h1)
      fun _ => slots_of_state fun _ h1 => by cases h1

theorem receiveHandshakeResponse_slots (hS : Slots h) (p : HandshakeResponse) (now : Nat) :
    Keeps Slots (receiveHandshakeResponse B p now) h :=
  receiveHandshakeResponse_keeps h p now hS hS.clear_previous
    fun _ => slots_of_state fun _ h1 => by cases h1

theorem Call.run_slots (hB : B.Lawful) (c : Call) (hS : Slots h) : Resumes Slots (c.run B) h := by
  cases c with
  | formatHandshakeInitiation eph now dst =>
    exact triple_bind (formatHandshakeInitiation_slots hB hS eph now dst) fun _ _ _ hS' =>
      triple_pure hS'
  | receiveHandshakeInitialization eph p dst =>
    exact triple_bind (receiveHandshakeInitialization_slots hS eph p dst).resumes
      fun _ _ _ hS' => triple_pure hS'
  | receiveHandshakeResponse p now =>
    exact triple_bind (receiveHandshakeResponse_slots hS p now).resumes fun _ _ _ hS' =>
      triple_pure hS'
  | receiveCookieReply p =>
    exact triple_bind (receiveCookieReply_keeps h p hS fun _ => hS.congr rfl rfl rfl).resumes
      fun _ _ _ hS' => triple_pure hS'
  | setStaticPrivate privateKey publicKey =>
    exact triple_bind (setStaticPrivate_keeps h privateKey publicKey
      fun _ => hS.congr rfl rfl rfl).resumes fun _ _ _ hS' => triple_pure hS'
  | setPresharedKey psk => exact triple_modify_bind (triple_pure (hS.congr rfl rfl rfl))
  | setExpired => exact triple_modify_bind (triple_pure (slots_of_state fun _ h1 => by cases h1))
  | clearCookie => exact triple_modify_bind (triple_pure (hS.congr rfl rfl rfl))

end Calls

/-- One call of the tunnel on its handshake, from which the tunnel goes on. -/
def Step (B : Backend) (h h' : Handshake) : Prop := ∃ c : Call, EndsIn (c.run B) h h'

def Reachable (B : Backend) : Handshake → Handshake → Prop := Relation.ReflTransGen (Step B)

/-- A run goes on with an initiation formatted into a buffer of
`HANDSHAKE_INIT_SZ` bytes at an instant the stamper can stamp: the initiation in
the current slot moves to the previous one, and the new one takes its place. -/
theorem Reachable.initiate (hB : B.Lawful) {h₀ h : Handshake} (hr : Reachable B h₀ h) (eph : Key)
    {now : Nat} {dst : List UInt8} (hdst : handshakeInitSz ≤ dst.length) {ts : Vector UInt8 12}
    (hts : h.stamper.stamp now = .ok ts) :
    ∃ h', Reachable B h₀ h' ∧ h'.previous = h.state ∧ (∃ s, h'.state = .initSent s) ∧
      h'.stamper = h.stamper := by
  obtain ⟨m, h', hrun, hprev, hst, hstamp⟩ : ∃ m h',
      (formatHandshakeInitiation B eph now dst).run h = .ok m h' ∧ h'.previous = h.state ∧
        (∃ s, h'.state = .initSent s) ∧ h'.stamper = h.stamper :=
    ⟨_, _, formatHandshakeInitiation_run hB h eph now dst hdst hts, rfl, ⟨_, rfl⟩, rfl⟩
  refine ⟨h', hr.tail ⟨.formatHandshakeInitiation eph now dst, .inl ⟨⟨some m, none⟩, ?_⟩⟩, hprev,
    hst, hstamp⟩
  simp only [Call.run, EStateM.run_bind, hrun]
  rfl

theorem slots_reachable (hB : B.Lawful) {h₀ h : Handshake} (h0 : Slots h₀)
    (hr : Reachable B h₀ h) : Slots h := by
  induction hr with
  | refl => exact h0
  | tail _ hstep ih =>
    obtain ⟨c, hc⟩ := hstep
    exact (Call.run_slots hB c ih).endsIn hc

/-- The slot a response is answered from: `state` if it holds the initiation the
response names, or else `previous`. -/
theorem select_eq_some {h : Handshake} {i : UInt32} {s : HandshakeInitSentState}
    {isPrevious : Bool}
    (hsel : ((h.state.sentTo i).map (·, false)).orElse
      (fun _ => (h.previous.sentTo i).map (·, true)) = some (s, isPrevious)) :
    (isPrevious = false ∧ h.state = .initSent s ∧ s.localIndex = i) ∨
      (isPrevious = true ∧ h.state.sentTo i = none ∧ h.previous = .initSent s ∧
        s.localIndex = i) := by
  cases hst : h.state.sentTo i with
  | some s' =>
    simp only [hst, Option.map_some, Option.orElse_some, Option.some.injEq, Prod.mk.injEq] at hsel
    obtain ⟨rfl, rfl⟩ := hsel
    exact .inl ⟨rfl, HandshakeState.sentTo_eq_some.mp hst⟩
  | none =>
    simp only [hst, Option.map_none, Option.orElse_none, Option.map_eq_some_iff,
      Prod.mk.injEq] at hsel
    obtain ⟨s', hprev, rfl, rfl⟩ := hsel
    exact .inr ⟨rfl, rfl, HandshakeState.sentTo_eq_some.mp hprev⟩

/-- A response either clears the slot of the initiation it names and leaves the
other, or fails with the handshake as it was. -/
theorem receiveHandshakeResponse_slot (h : Handshake) (p : HandshakeResponse) (now : Nat) :
    Triple (fun _ h' =>
        (∃ s, h.state = .initSent s ∧ s.localIndex = p.receiverIdx ∧ h'.state = .none ∧
          h'.previous = h.previous) ∨
        (h.state.sentTo p.receiverIdx = none ∧ ∃ s, h.previous = .initSent s ∧
          s.localIndex = p.receiverIdx ∧ h'.previous = .none ∧ h'.state = h.state))
      (fun _ h' => h' = h) (receiveHandshakeResponse B p now) h := by
  unfold receiveHandshakeResponse
  apply triple_get_bind
  split
  · rename_i s isPrevious hsel
    refine triple_liftExcept_bind (fun _ _ => rfl) fun _ _ => ?_
    rcases select_eq_some hsel with ⟨rfl, hs, hi⟩ | ⟨rfl, hst, hp, hi⟩
    · exact triple_set_bind (triple_pure (.inl ⟨s, hs, hi, rfl, rfl⟩))
    · exact triple_set_bind (triple_pure (.inr ⟨hst, s, hp, hi, rfl, rfl⟩))
  · exact triple_of_error rfl rfl

theorem receiveHandshakeResponse_unanswered {h : Handshake} {p : HandshakeResponse} (now : Nat)
    (hs : h.state.sentTo p.receiverIdx = none) (hp : h.previous.sentTo p.receiverIdx = none) :
    (receiveHandshakeResponse B p now).run h = .error (.err .unexpectedPacket) h := by
  simp [receiveHandshakeResponse, EStateM.run_bind, EStateM.run_get, hs, hp]
  rfl

/-- With the slots apart, a response accepted once leaves no initiation of its
index in either slot. -/
theorem Slots.answered {h h' : Handshake} (hS : Slots h) {i : UInt32}
    (hans : (∃ s, h.state = .initSent s ∧ s.localIndex = i ∧ h'.state = .none ∧
          h'.previous = h.previous) ∨
        (h.state.sentTo i = none ∧ ∃ s, h.previous = .initSent s ∧ s.localIndex = i ∧
          h'.previous = .none ∧ h'.state = h.state)) :
    h'.state.sentTo i = none ∧ h'.previous.sentTo i = none := by
  rcases hans with ⟨s, hs, hi, hst, hp⟩ | ⟨hst, s, -, -, hp, hs⟩
  · refine ⟨by rw [hst]; rfl, ?_⟩
    cases hprev : h'.previous.sentTo i with
    | none => rfl
    | some s' =>
      obtain ⟨hs', hi'⟩ := HandshakeState.sentTo_eq_some.mp hprev
      exact absurd (hi.trans hi'.symm) (hS.distinct s s' hs (hp ▸ hs'))
  · exact ⟨hs ▸ hst, by rw [hp]; rfl⟩

/-- Along every run of the calls the tunnel makes on a new handshake, the two
slots never hold initiations of one index, a response is accepted only for an
initiation held in a slot, which it clears, the other left as it was, a refused
response changes nothing, and a response accepted once is refused afterwards. -/
theorem responses_single_use (hB : B.Lawful) {staticPrivate staticPublic peerStaticPublic : Key}
    {globalIdx : UInt32} {presharedKey : Option Key} {systemTime : Int} {now₀ : Nat}
    {h₀ h : Handshake}
    (hnew : Handshake.new B staticPrivate staticPublic peerStaticPublic globalIdx presharedKey
      systemTime now₀ = .ok h₀)
    (hr : Reachable B h₀ h) :
    (∀ s s', h.state = .initSent s → h.previous = .initSent s' → s.localIndex ≠ s'.localIndex) ∧
    ∀ (p : HandshakeResponse) (now : Nat),
      (∀ session h', (receiveHandshakeResponse B p now).run h = .ok session h' →
        ((∃ s, h.state = .initSent s ∧ s.localIndex = p.receiverIdx ∧ h'.state = .none ∧
            h'.previous = h.previous) ∨
          (∃ s, h.previous = .initSent s ∧ s.localIndex = p.receiverIdx ∧
            h'.previous = .none ∧ h'.state = h.state)) ∧
        ∀ (p' : HandshakeResponse) (now' : Nat), p'.receiverIdx = p.receiverIdx →
          (receiveHandshakeResponse B p' now').run h' = .error (.err .unexpectedPacket) h') ∧
      ∀ f h', (receiveHandshakeResponse B p now).run h = .error f h' → h' = h := by
  have hS := slots_reachable hB (slots_new hnew) hr
  refine ⟨hS.distinct, fun p now => ⟨fun session h' hrun => ?_, fun f h' hrun => ?_⟩⟩
  · have hans := (receiveHandshakeResponse_slot h p now).of_ok hrun
    obtain ⟨hst, hprev⟩ := hS.answered hans
    refine ⟨?_, fun p' now' hi => ?_⟩
    · rcases hans with ⟨s, hs, hi, h1, h2⟩ | ⟨-, s, hs, hi, h1, h2⟩
      · exact .inl ⟨s, hs, hi, h1, h2⟩
      · exact .inr ⟨s, hs, hi, h1, h2⟩
    · exact receiveHandshakeResponse_unanswered now' (hi ▸ hst) (hi ▸ hprev)
  · exact (receiveHandshakeResponse_slot h p now).of_error hrun

/-- A new handshake that has sent two initiations, both held: one in each slot. -/
theorem responses_single_use_two_initiations :
    ∃ h₀ h, Handshake.new Backend.plain (.replicate 32 1) (.replicate 32 1) (.replicate 32 2) 0
        none 0 0 = .ok h₀ ∧ Reachable Backend.plain h₀ h ∧
      (∃ s s', h.state = .initSent s ∧ h.previous = .initSent s') ∧
      (∀ s s', h.state = .initSent s → h.previous = .initSent s' →
        s.localIndex ≠ s'.localIndex) ∧
      ∀ (p : HandshakeResponse) (now : Nat),
        (∀ session h', (receiveHandshakeResponse Backend.plain p now).run h = .ok session h' →
          ((∃ s, h.state = .initSent s ∧ s.localIndex = p.receiverIdx ∧ h'.state = .none ∧
              h'.previous = h.previous) ∨
            (∃ s, h.previous = .initSent s ∧ s.localIndex = p.receiverIdx ∧
              h'.previous = .none ∧ h'.state = h.state)) ∧
          ∀ (p' : HandshakeResponse) (now' : Nat), p'.receiverIdx = p.receiverIdx →
            (receiveHandshakeResponse Backend.plain p' now').run h' =
              .error (.err .unexpectedPacket) h') ∧
        ∀ f h', (receiveHandshakeResponse Backend.plain p now).run h = .error f h' → h' = h := by
  obtain ⟨h₀, hnew, hst₀⟩ : ∃ h₀, Handshake.new Backend.plain (.replicate 32 1) (.replicate 32 1)
      (.replicate 32 2) 0 none 0 0 = .ok h₀ ∧ h₀.stamper = ⟨0, 0⟩ := ⟨_, rfl, rfl⟩
  obtain ⟨ts, hts⟩ : ∃ ts, h₀.stamper.stamp 0 = .ok ts := by
    rw [hst₀]
    exact ⟨_, rfl⟩
  have hdst : handshakeInitSz ≤ (List.replicate 148 (0 : UInt8)).length := by
    simp [handshakeInitSz]
  obtain ⟨h₁, hr₁, -, ⟨s₁, hs₁⟩, hst₁⟩ :=
    Reachable.initiate plain_lawful (.refl : Reachable _ h₀ h₀) (.replicate 32 3) hdst hts
  obtain ⟨h₂, hr₂, hp₂, ⟨s₂, hs₂⟩, -⟩ :=
    hr₁.initiate plain_lawful (.replicate 32 4) hdst (hst₁ ▸ hts)
  exact ⟨h₀, h₂, hnew, hr₂, ⟨s₂, s₁, hs₂, hp₂.trans hs₁⟩, responses_single_use plain_lawful hnew hr₂⟩

end Handshake

end Neptun.Noise
