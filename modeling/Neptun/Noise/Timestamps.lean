import Neptun.Noise.Calls

/-! Replayed initiations are refused. `receive_handshake_initialization` accepts
an initiation only if the timestamp it opens to is after the last one accepted,
and writes that timestamp before it formats the response: the accepted
timestamps of any run of the handshake's calls increase strictly, and the last
one is the one held. The timestamps a stamper writes increase with the instant
they are taken at, as long as the seconds field, `as_secs() + TAI64_BASE` in
`u64`, does not wrap. -/
namespace Neptun.Noise

open Lib

namespace Tai64N

theorem after_iff (t other : Tai64N) :
    t.after other = true ↔ other.secs.toNat < t.secs.toNat ∨
      (t.secs.toNat = other.secs.toNat ∧ other.nano.toNat < t.nano.toNat) := by
  simp only [after, Bool.or_eq_true, decide_eq_true_eq, Bool.and_eq_true, beq_iff_eq,
    UInt64.lt_iff_toNat_lt, UInt32.lt_iff_toNat_lt, ← UInt64.toNat_inj]

theorem after_irrefl (t : Tai64N) : t.after t = false := by
  rw [← Bool.not_eq_true, after_iff]
  omega

/-- What is before `t` is before anything `t` is not after. -/
theorem after_false_of_after {a t f : Tai64N} (hta : t.after a = true) (htf : t.after f = false) :
    a.after f = false := by
  rw [← Bool.not_eq_true, after_iff] at htf ⊢
  rw [after_iff] at hta
  omega

/-- A timestamp fails to parse only as the source says it may, or by a panic of
its split. -/
theorem parse_error {buf : List UInt8} {f : Fault WireGuardError} (h : parse buf = .error f) :
    f = .err .invalidTai64nTimestamp ∨ f = .panic := by
  simp only [parse, except_bind_eq] at h
  split at h
  · cases h
    exact .inl rfl
  split at h
  · -- the split succeeded: what is left fails only for a short field
    split at h
    · split at h
      · cases h
      · cases h
        exact .inl rfl
    · cases h
      exact .inl rfl
  · rename_i hsplit
    cases h
    exact .inr (splitAt_error hsplit)

end Tai64N

theorem u64FromBe_u64ToBe (x : UInt64) (h : (u64ToBe x).toArray.size = 8) :
    u64FromBe ⟨(u64ToBe x).toArray, h⟩ = x := by
  have := x.toNat_lt
  simp [u64FromBe, u64ToBe, ofBeBytes_beBytes, Nat.mod_eq_of_lt this]

theorem u32FromBe_u32ToBe (x : UInt32) (h : (u32ToBe x).toArray.size = 4) :
    u32FromBe ⟨(u32ToBe x).toArray, h⟩ = x := by
  have := x.toNat_lt
  simp [u32FromBe, u32ToBe, ofBeBytes_beBytes, Nat.mod_eq_of_lt this]

namespace TimeStamper

/-- A stamp parses back to the seconds and nanoseconds it was written from. -/
theorem parse_stamp {st : TimeStamper} {now : Nat} {v : Vector UInt8 12}
    (hv : st.stamp now = .ok v) :
    Tai64N.parse v.toList = .ok
      ⟨UInt64.ofNat ((now - st.instantAtStart + st.durationAtStart) / 10 ^ 9) + tai64Base,
        UInt32.ofNat ((now - st.instantAtStart + st.durationAtStart) % 10 ^ 9)⟩ := by
  simp only [stamp] at hv
  split at hv
  · cases hv
  · cases hv
    simp [Tai64N.parse, splitAt_append (length_u64ToBe _), tryIntoArray_of_length,
      u64FromBe_u64ToBe, u32FromBe_u32ToBe]
    rfl

/-- A stamp is taken unless adding the durations overflows `u64` seconds. -/
theorem stamp_ok {st : TimeStamper} {now : Nat}
    (h : (now - st.instantAtStart + st.durationAtStart) / 10 ^ 9 < 2 ^ 64) :
    ∃ v, st.stamp now = .ok v := by
  simp only [stamp, if_neg (Nat.not_le.mpr h)]
  exact ⟨_, rfl⟩

/-- Later instants give later timestamps while `as_secs() + TAI64_BASE` stays in
`u64`: seconds and nanoseconds grow lexicographically with the duration. -/
theorem stamp_after {st : TimeStamper} {now₁ now₂ : Nat} (h₁ : st.instantAtStart ≤ now₁)
    (h₁₂ : now₁ < now₂)
    (hwrap : (now₂ - st.instantAtStart + st.durationAtStart) / 10 ^ 9 + tai64Base.toNat < 2 ^ 64)
    {v₁ v₂ : Vector UInt8 12} {t₁ t₂ : Tai64N} (hv₁ : st.stamp now₁ = .ok v₁)
    (hv₂ : st.stamp now₂ = .ok v₂) (ht₁ : Tai64N.parse v₁.toList = .ok t₁)
    (ht₂ : Tai64N.parse v₂.toList = .ok t₂) : t₂.after t₁ = true := by
  rw [parse_stamp hv₁, Except.ok.injEq] at ht₁
  rw [parse_stamp hv₂, Except.ok.injEq] at ht₂
  subst ht₁ ht₂
  have hbase : tai64Base.toNat = 2 ^ 62 + 37 := rfl
  rw [hbase] at hwrap
  -- both durations are below the wrap point, so no `toNat` below wraps
  have hd : now₁ - st.instantAtStart + st.durationAtStart < now₂ - st.instantAtStart + st.durationAtStart := by
    omega
  rw [Tai64N.after_iff]
  simp only [UInt64.toNat_add, UInt64.toNat_ofNat', UInt32.toNat_ofNat', hbase]
  generalize now₁ - st.instantAtStart + st.durationAtStart = d₁ at hd ⊢
  generalize now₂ - st.instantAtStart + st.durationAtStart = d₂ at hd hwrap ⊢
  simp only [Nat.reducePow] at hwrap ⊢
  omega

end TimeStamper

namespace Handshake

section Accepted

variable (B : Backend)

/-- The timestamp a call accepts from `h`: the one an initiation opens to, when
it passes the checks and is after the last one. The handshake is written with
it whether or not the response can then be formatted. -/
def acceptedStamp (h : Handshake) : Call → Option Tai64N
  | .receiveHandshakeInitialization _ p _ =>
    match openInitiation B h p with
    | .ok (t, _, _) => if t.after h.lastHandshakeTimestamp then some t else none
    | .error _ => none
  | _ => none

/-- The timestamps accepted along the run of `calls` from `h`, in order. -/
def acceptedStamps : List Call → Handshake → List Tai64N
  | [], _ => []
  | c :: cs, h => (acceptedStamp B h c).toList ++ acceptedStamps cs (stateOf ((c.run B).run h))

variable {B}

theorem acceptedStamp_after {h : Handshake} {c : Call} {t : Tai64N}
    (ht : acceptedStamp B h c = some t) : t.after h.lastHandshakeTimestamp = true := by
  cases c with
  | receiveHandshakeInitialization eph p dst =>
    simp only [acceptedStamp] at ht
    split at ht
    · split at ht
      · cases ht
        assumption
      · cases ht
    · cases ht
  | _ => cases ht

theorem lastHandshakeTimestamp_stateOf {α : Type} {m : EStateM (Fault WireGuardError) Handshake α}
    {h : Handshake}
    (hk : Keeps (fun h' => h'.lastHandshakeTimestamp = h.lastHandshakeTimestamp) m h) :
    (stateOf (m.run h)).lastHandshakeTimestamp = h.lastHandshakeTimestamp :=
  keeps_iff.mp hk

/-- The step of a run: the timestamp held after a call is the one it accepted,
or else the one held before. -/
theorem lastHandshakeTimestamp_run (c : Call) (h : Handshake) :
    (stateOf ((c.run B).run h)).lastHandshakeTimestamp =
      (acceptedStamp B h c).getD h.lastHandshakeTimestamp := by
  cases c with
  | formatHandshakeInitiation eph now dst =>
    exact lastHandshakeTimestamp_stateOf (triple_bind_pure
      (formatHandshakeInitiation_keeps h eph now dst rfl rfl (fun _ _ => rfl) fun _ _ _ => rfl))
  | receiveHandshakeInitialization eph p dst =>
    simp only [Call.run, acceptedStamp]
    rw [stateOf_run_bind fun _ _ => rfl, receiveHandshakeInitialization_run_eq]
    rcases openInitiation B h p with f | ⟨t, hash, chainingKey⟩
    · rfl
    · dsimp only
      split
      · exact keeps_iff.mp (formatHandshakeResponse_keeps (P := fun h' => h'.lastHandshakeTimestamp = t)
          _ eph dst rfl rfl rfl fun _ => rfl)
      · rfl
  | receiveHandshakeResponse p now =>
    exact lastHandshakeTimestamp_stateOf (triple_bind_pure
      (receiveHandshakeResponse_keeps h p now rfl (fun _ => rfl) fun _ => rfl))
  | receiveCookieReply p =>
    exact lastHandshakeTimestamp_stateOf (triple_bind (receiveCookieReply_keeps h p rfl fun _ => rfl)
      fun _ _ _ hk => triple_pure hk)
  | setStaticPrivate privateKey publicKey =>
    exact lastHandshakeTimestamp_stateOf (triple_bind
      (setStaticPrivate_keeps h privateKey publicKey fun _ => rfl) fun _ _ _ hk => triple_pure hk)
  | setPresharedKey psk => rfl
  | setExpired => rfl
  | clearCookie => rfl

/-- The run: the accepted timestamps increase strictly from the one held at the
start, the one held at the end is the last of them, and none of them is after
it. -/
theorem acceptedStamps_run (calls : List Call) (h : Handshake) :
    List.IsChain (fun a b => b.after a = true) (h.lastHandshakeTimestamp :: acceptedStamps B calls h) ∧
    (afterCalls (Call.run B) calls h).lastHandshakeTimestamp =
      (acceptedStamps B calls h).getLastD h.lastHandshakeTimestamp ∧
    ∀ t ∈ h.lastHandshakeTimestamp :: acceptedStamps B calls h,
      t.after (afterCalls (Call.run B) calls h).lastHandshakeTimestamp = false := by
  induction calls generalizing h with
  | nil =>
    refine ⟨List.IsChain.singleton _, rfl, fun t ht => ?_⟩
    rw [List.mem_singleton.mp ht]
    exact Tai64N.after_irrefl _
  | cons c cs ih =>
    obtain ⟨hchain, hlast, hbelow⟩ := ih (stateOf ((c.run B).run h))
    have hstep := lastHandshakeTimestamp_run (B := B) c h
    simp only [acceptedStamps, afterCalls]
    cases hacc : acceptedStamp B h c with
    | none =>
      rw [hacc, Option.getD_none] at hstep
      rw [hstep] at hchain hlast hbelow
      exact ⟨hchain, hlast, hbelow⟩
    | some t =>
      have hafter := acceptedStamp_after hacc
      rw [hacc, Option.getD_some] at hstep
      rw [hstep] at hchain hlast hbelow
      refine ⟨List.isChain_cons_cons.mpr ⟨hafter, hchain⟩, ?_, fun a ha => ?_⟩
      · rw [Option.toList_some, List.singleton_append, List.getLastD_cons]
        exact hlast
      · rw [Option.toList_some, List.singleton_append] at ha
        rcases List.mem_cons.mp ha with rfl | ha
        -- the timestamp held before is below the one accepted, which is not after the end
        · exact Tai64N.after_false_of_after hafter (hbelow t List.mem_cons_self)
        · exact hbelow a ha

/-- An initiation whose timestamp is not after the last one is refused, and the
handshake is left as it was. -/
theorem receiveHandshakeInitialization_stale {h : Handshake} (eph : Key) {p : HandshakeInit}
    (dst : List UInt8) {t : Tai64N} {hash chainingKey : Key}
    (hopen : openInitiation B h p = .ok (t, hash, chainingKey))
    (hstale : t.after h.lastHandshakeTimestamp = false) :
    (receiveHandshakeInitialization B eph p dst).run h = .error (.err .wrongTai64nTimestamp) h := by
  rw [receiveHandshakeInitialization_run_eq, hopen]
  simp [hstale]

end Accepted

/-- Initiation anti-replay: along any run the accepted timestamps increase
strictly and the last one is held, none of them is after it so a replay of any is
refused, a stale initiation leaves the handshake as it was, and the stamps of one
stamper increase with the instant while the system time it reads stays below
`2^63` seconds after the epoch, where `as_secs() + TAI64_BASE` cannot wrap. -/
theorem initiation_timestamps_increase :
    (∀ (B : Backend) (calls : List Call) (h : Handshake),
      List.IsChain (fun a b => b.after a = true) (h.lastHandshakeTimestamp :: acceptedStamps B calls h) ∧
      (afterCalls (Call.run B) calls h).lastHandshakeTimestamp =
        (acceptedStamps B calls h).getLastD h.lastHandshakeTimestamp ∧
      ∀ t ∈ acceptedStamps B calls h,
        t.after (afterCalls (Call.run B) calls h).lastHandshakeTimestamp = false) ∧
    (∀ (B : Backend) (h : Handshake) (eph : Key) (p : HandshakeInit) (dst : List UInt8)
      (t : Tai64N) (hash chainingKey : Key),
      openInitiation B h p = .ok (t, hash, chainingKey) →
      t.after h.lastHandshakeTimestamp = false →
      (receiveHandshakeInitialization B eph p dst).run h = .error (.err .wrongTai64nTimestamp) h) ∧
    (∀ (st : TimeStamper) (now₁ now₂ : Nat), st.instantAtStart ≤ now₁ → now₁ < now₂ →
      now₂ - st.instantAtStart + st.durationAtStart < 2 ^ 63 * 10 ^ 9 →
      ∃ v₁ v₂ t₁ t₂, st.stamp now₁ = .ok v₁ ∧ st.stamp now₂ = .ok v₂ ∧
        Tai64N.parse v₁.toList = .ok t₁ ∧ Tai64N.parse v₂.toList = .ok t₂ ∧ t₂.after t₁ = true) := by
  refine ⟨fun B calls h => ?_, fun B h eph p dst t hash chainingKey hopen hstale =>
    receiveHandshakeInitialization_stale eph dst hopen hstale, fun st now₁ now₂ h₁ h₁₂ htime => ?_⟩
  · obtain ⟨hchain, hlast, hbelow⟩ := acceptedStamps_run (B := B) calls h
    exact ⟨hchain, hlast, fun t ht => hbelow t (List.mem_cons_of_mem _ ht)⟩
  · have hbase : TimeStamper.tai64Base.toNat = 2 ^ 62 + 37 := rfl
    -- below 2^63 seconds the seconds field and TAI64_BASE add without a wrap
    have hsecs : (now₂ - st.instantAtStart + st.durationAtStart) / 10 ^ 9 < 2 ^ 63 :=
      Nat.div_lt_of_lt_mul (by rw [Nat.mul_comm]; exact htime)
    have hwrap : (now₂ - st.instantAtStart + st.durationAtStart) / 10 ^ 9 +
        TimeStamper.tai64Base.toNat < 2 ^ 64 := by
      rw [hbase]
      omega
    obtain ⟨v₁, hv₁⟩ := @TimeStamper.stamp_ok st now₁ (by omega)
    obtain ⟨v₂, hv₂⟩ := @TimeStamper.stamp_ok st now₂ (by omega)
    exact ⟨v₁, v₂, _, _, hv₁, hv₂, TimeStamper.parse_stamp hv₁, TimeStamper.parse_stamp hv₂,
      TimeStamper.stamp_after h₁ h₁₂ hwrap hv₁ hv₂ (TimeStamper.parse_stamp hv₁)
        (TimeStamper.parse_stamp hv₂)⟩

/-- A handshake that has accepted nothing yet, and an initiation for it under
the transparent backend whose timestamp is zero. -/
def staleInitiation : Handshake × HandshakeInit :=
  (⟨NoiseParams.new Backend.plain (.replicate 32 1) (.replicate 32 1) (.replicate 32 2) none, 0,
      .none, .none, ⟨none, 0, none⟩, Tai64N.zero, ⟨0, 0⟩, none⟩,
    ⟨7, .replicate 32 3, List.replicate 32 2 ++ List.replicate 16 0, List.replicate 28 0⟩)

theorem initiation_timestamps_increase_stale_and_stamps :
    (∃ hash chainingKey,
      openInitiation Backend.plain staleInitiation.1 staleInitiation.2 =
        .ok (Tai64N.zero, hash, chainingKey) ∧
      (receiveHandshakeInitialization Backend.plain (.replicate 32 4) staleInitiation.2 []).run
        staleInitiation.1 = .error (.err .wrongTai64nTimestamp) staleInitiation.1) ∧
    ∃ v₁ v₂ t₁ t₂, (⟨10 ^ 9, 5⟩ : TimeStamper).stamp 5 = .ok v₁ ∧
      (⟨10 ^ 9, 5⟩ : TimeStamper).stamp 6 = .ok v₂ ∧
      Tai64N.parse v₁.toList = .ok t₁ ∧ Tai64N.parse v₂.toList = .ok t₂ ∧ t₂.after t₁ = true := by
  have hopen : openInitiation Backend.plain staleInitiation.1 staleInitiation.2 =
      .ok (Tai64N.zero, _, _) := rfl
  exact ⟨⟨_, _, hopen, initiation_timestamps_increase.2.1 Backend.plain _ _ _ [] _ _ _ hopen rfl⟩,
    initiation_timestamps_increase.2.2 _ 5 6 (by decide) (by decide) (by decide)⟩

end Handshake

end Neptun.Noise
