import Neptun.Noise.Cookie
import Neptun.Lib.Run

/-! How many handshake messages the rate limiter admits. `verify_packet` counts a
handshake message once its mac1 is right, and the limiter is under load when the
count it finds has reached the limit; under load a message needs the mac2 of the
cookie of its source address. Along the calls between two resets, the messages
admitted without that mac2 are at most the limit less the count the calls start
from, as long as the count, a `u64`, does not wrap. -/
namespace Neptun.Noise

open Lib

namespace RateLimiter

variable {B : Backend}

/-- One datagram given to `verify_packet`, with the instant of the call. -/
structure Datagram where
  srcAddr : Option IpAddr
  src : List UInt8
  dst : List UInt8
  now : Nat

def verifyCall (B : Backend) (d : Datagram) : EStateM (Fault TunnResult) RateLimiter Packet :=
  verifyPacket B d.srcAddr d.src d.dst d.now

/-- A handshake message whose mac1 is the MAC, under the limiter's mac1 key, of the
bytes before it: the datagrams `verify_packet` counts. -/
def Counted (B : Backend) (r : RateLimiter) (src : List UInt8) : Prop :=
  ∃ p i body mac2, Tunn.parseIncomingPacket src = .ok p ∧ p.handshakeSenderIdx = some i ∧
    mac2.length = 16 ∧ src = body ++ ((B.blake2sMac16 r.mac1Key.toList body).toList ++ mac2)

/-- The last 16 bytes are the MAC, under the cookie of the source address, of the
bytes before them. -/
def mac2Valid (B : Backend) (r : RateLimiter) (d : Datagram) : Bool :=
  match d.srcAddr with
  | none => false
  | some addr =>
    match currentCookie B r addr d.now with
    | .ok cookie =>
      (B.blake2sMac16 cookie.toList (d.src.take (d.src.length - 16))).toList ==
        d.src.drop (d.src.length - 16)
    | .error _ => false

/-- The call returned a handshake message without a valid mac2. -/
def admittedWithoutMac2 (B : Backend) (d : Datagram) (r : RateLimiter) : Bool :=
  match (verifyCall B d).run r with
  | .ok p _ => p.handshakeSenderIdx.isSome && !mac2Valid B r d
  | .error _ _ => false

/-- The handshake messages admitted without a valid mac2 by the calls `ds`, made in
turn from `r`. -/
def admissions (B : Backend) (ds : List Datagram) (r : RateLimiter) : Nat :=
  countCalls (verifyCall B) (admittedWithoutMac2 B) ds r

/-- What a counted message gets once the count has reached the limit: it is returned
with a valid mac2; without a source address it is refused with `UnderLoad`;
otherwise it is answered with a cookie reply, or refused when `dst` has no room for
one. -/
def LoadedOutcome (B : Backend) (r : RateLimiter) (d : Datagram) :
    EStateM.Result (Fault TunnResult) RateLimiter Packet → Prop
  | .ok _ _ => mac2Valid B r d = true
  | .error (.err (.err .underLoad)) _ => d.srcAddr = none
  | .error (.err (.writeToNetwork _)) _ =>
    d.srcAddr ≠ none ∧ mac2Valid B r d = false ∧ cookieReplySz ≤ d.dst.length
  | .error (.err (.err .destinationBufferTooSmall)) _ =>
    d.srcAddr ≠ none ∧ mac2Valid B r d = false ∧ d.dst.length < cookieReplySz
  | _ => False

theorem thirtyTwo_le_of_parse {src : List UInt8} {p : Packet}
    (h : Tunn.parseIncomingPacket src = .ok p) : 32 ≤ src.length := by
  rcases (parseIncomingPacket_ok_iff src).mp ⟨p, h⟩ with
    ⟨-, ⟨-, hl⟩ | ⟨-, hl⟩ | ⟨-, hl⟩ | ⟨-, hl⟩⟩ <;> omega

/-- Before it counts a message, `verify_packet` only reads the limiter: a datagram
it does not count leaves the limiter as it was, and is returned only when it is not
a handshake message. -/
theorem verifyCall_cases (r : RateLimiter) (d : Datagram) :
    Counted B r d.src ∨ (∃ e, (verifyCall B d).run r = .error e r) ∨
      ∃ p, (verifyCall B d).run r = .ok p r ∧ p.handshakeSenderIdx = none := by
  unfold verifyCall verifyPacket
  cases hparse : Tunn.parseIncomingPacket d.src with
  | error e =>
    refine .inr (.inl ⟨Fault.mapErr TunnResult.err e, ?_⟩)
    simp [EStateM.run_bind, liftExcept, Except.mapError]
    rfl
  | ok p =>
    cases hidx : p.handshakeSenderIdx with
    | none =>
      refine .inr (.inr ⟨p, ?_, hidx⟩)
      simp [hidx, liftExcept, Except.mapError]
    | some i =>
      have hlen := thirtyTwo_le_of_parse hparse
      have hmacs : 16 ≤ (d.src.drop (d.src.length - 32)).length := by simp; omega
      by_cases hmac : (B.blake2sMac16 r.mac1Key.toList (d.src.take (d.src.length - 32))).toList =
          (d.src.drop (d.src.length - 32)).take 16
      · -- the mac1 is right: the message is counted
        refine .inl ⟨p, i, d.src.take (d.src.length - 32), (d.src.drop (d.src.length - 32)).drop 16,
          hparse, hidx, by simp; omega, ?_⟩
        rw [hmac, List.take_append_drop, List.take_append_drop]
      · -- the mac1 is wrong: refused before the count is read
        have h16 : ((B.blake2sMac16 r.mac1Key.toList (d.src.take (d.src.length - 32))).toList).take
            16 = (B.blake2sMac16 r.mac1Key.toList (d.src.take (d.src.length - 32))).toList :=
          List.take_of_length_le (by simp)
        refine .inr (.inl ⟨.err (.err .invalidMac), ?_⟩)
        simp [hidx, EStateM.run_bind, mapError_ok, liftExcept_ok, mapError_pure, liftExcept_pure,
          splitAt_of_le (Nat.sub_le d.src.length 32), splitAt_of_le hmacs, b2sKeyedMac16,
          getRange_of_le, h16, hmac]

/-- On a datagram that ends in a mac1 and a mac2, `mac2Valid` compares that mac2 with
the MAC of the bytes before it under the cookie. -/
theorem mac2Valid_of_cookie {r : RateLimiter} {addr : IpAddr} {c : Vector UInt8 16}
    {body m1 mac2 dst : List UInt8} {now : Nat} (hc : currentCookie B r addr now = .ok c)
    (hm : mac2.length = 16) :
    mac2Valid B r ⟨some addr, body ++ (m1 ++ mac2), dst, now⟩ =
      decide (mac2 = (B.blake2sMac16 c.toList (body ++ m1)).toList) := by
  have hlen : (body ++ m1 ++ mac2).length - 16 = (body ++ m1).length := by simp; omega
  simp only [mac2Valid, hc, ← List.append_assoc, hlen, List.take_left, List.drop_left]
  by_cases h : mac2 = (B.blake2sMac16 c.toList (body ++ m1)).toList
  · simp [h]
  · simp [h, Ne.symm h]

/-- What `verify_packet` does with a message it counts: the count goes up by one and
the limit stays; below the limit the message is returned, and from the limit on it
gets one of the outcomes of `LoadedOutcome`. -/
theorem verifyCall_of_counted (hB : B.Lawful) {r : RateLimiter} {d : Datagram}
    (hc : Counted B r d.src) :
    ((stateOf ((verifyCall B d).run r)).count = r.count + 1 ∧
      (stateOf ((verifyCall B d).run r)).limit = r.limit) ∧
    (r.count < r.limit →
      ∃ p s, (verifyCall B d).run r = .ok p s ∧ p.handshakeSenderIdx.isSome) ∧
    (r.limit ≤ r.count → LoadedOutcome B r d ((verifyCall B d).run r)) := by
  obtain ⟨p, i, body, mac2, hparse, hidx, hm, hsrc⟩ := hc
  obtain ⟨srcAddr, src, dst, now⟩ := d
  dsimp only at hparse hsrc
  subst hsrc
  unfold verifyCall
  dsimp only
  by_cases hload : r.count < r.limit
  · -- below the limit the message is returned
    rw [verifyPacket_of_not_underLoad r body mac2 dst now hparse hidx hm srcAddr hload]
    exact ⟨⟨rfl, rfl⟩, fun _ => ⟨p, _, rfl, by simp [hidx]⟩,
      fun h => absurd hload (UInt64.not_lt.mpr h)⟩
  have hload' : r.limit ≤ r.count := UInt64.not_lt.mp hload
  cases srcAddr with
  | none =>
    rw [verifyPacket_of_underLoad_none r body mac2 dst now hparse hidx hm hload']
    exact ⟨⟨rfl, rfl⟩, fun h => absurd h hload, fun _ => rfl⟩
  | some addr =>
    -- from the limit on, only a message with the mac2 of the cookie is returned
    obtain ⟨c, hcookie⟩ := currentCookie_ok (B := B) r addr now
    have hv := @mac2Valid_of_cookie B r addr c body
      (B.blake2sMac16 r.mac1Key.toList body).toList mac2 dst now hcookie hm
    by_cases hmac2 : mac2 = (B.blake2sMac16 c.toList
        (body ++ (B.blake2sMac16 r.mac1Key.toList body).toList)).toList
    · rw [verifyPacket_of_mac2 r body mac2 dst now hparse hidx hcookie hmac2]
      refine ⟨⟨rfl, rfl⟩, fun h => absurd h hload, fun _ => ?_⟩
      simpa [LoadedOutcome, hv] using hmac2
    by_cases hdst : cookieReplySz ≤ dst.length
    · have hrun := verifyPacket_of_cookieReply r body mac2 dst now hparse hidx hB hm hload'
        hcookie hmac2 hdst
      dsimp only at hrun
      rw [hrun]
      refine ⟨⟨rfl, rfl⟩, fun h => absurd h hload, fun _ => ?_⟩
      simp [LoadedOutcome, hv, hmac2, hdst]
    · rw [verifyPacket_of_small_dst r body mac2 dst now hparse hidx hm hload' hcookie hmac2
        (Nat.lt_of_not_le hdst)]
      refine ⟨⟨rfl, rfl⟩, fun h => absurd h hload, fun _ => ?_⟩
      simp [LoadedOutcome, hv, hmac2, Nat.lt_of_not_le hdst]

/-- One call: the limit stays, the count goes up by at most one, and a message
returned without a valid mac2 was counted below the limit. -/
theorem verifyCall_step (hB : B.Lawful) (d : Datagram) (r : RateLimiter)
    (hK : r.count.toNat < 2 ^ 64 - 1) :
    (stateOf ((verifyCall B d).run r)).limit = r.limit ∧
      r.count.toNat ≤ (stateOf ((verifyCall B d).run r)).count.toNat ∧
      (stateOf ((verifyCall B d).run r)).count.toNat ≤ r.count.toNat + 1 ∧
      (admittedWithoutMac2 B d r = true → r.count.toNat < r.limit.toNat ∧
        (stateOf ((verifyCall B d).run r)).count.toNat = r.count.toNat + 1) := by
  rcases verifyCall_cases r d with hc | ⟨e, he⟩ | ⟨p, hp, hidx⟩
  · obtain ⟨⟨hcount, hlimit⟩, -, hloaded⟩ := verifyCall_of_counted hB hc
    -- the count is far from 2^64, so adding one does not wrap
    have hsucc : (stateOf ((verifyCall B d).run r)).count.toNat = r.count.toNat + 1 := by
      rw [hcount, UInt64.toNat_add, UInt64.toNat_one, Nat.mod_eq_of_lt (by omega)]
    refine ⟨hlimit, by omega, by omega, fun ht => ⟨?_, hsucc⟩⟩
    rw [← UInt64.lt_iff_toNat_lt]
    by_contra hload
    have hout := hloaded (UInt64.not_lt.mp hload)
    unfold admittedWithoutMac2 at ht
    cases hres : (verifyCall B d).run r with
    | ok p s =>
      rw [hres] at ht hout
      -- from the limit on, what is returned carries a valid mac2
      have hv : mac2Valid B r d = true := hout
      simp [hv] at ht
    | error e s => simp [hres] at ht
  · simp [he, stateOf, admittedWithoutMac2]
  · simp [hp, stateOf, admittedWithoutMac2, hidx]

/-- Along calls made in turn, at most the limit less the starting count are
returned without a valid mac2, while the count stays below 2^64. -/
theorem admissions_le (hB : B.Lawful) (r : RateLimiter) (ds : List Datagram)
    (hK : r.count.toNat + ds.length < 2 ^ 64) :
    admissions B ds r ≤ r.limit.toNat - r.count.toNat := by
  refine countCalls_le (I := fun s => s.limit = r.limit) (fun s => s.count.toNat)
    r.limit.toNat (2 ^ 64 - 1) (fun d s hs hlt => ?_) ds r rfl (by omega)
  obtain ⟨hlimit, hle, hsucc, hadmit⟩ := verifyCall_step hB d s hlt
  refine ⟨hlimit.trans hs, hle, hsucc, fun ht => ?_⟩
  rw [← hs]
  exact hadmit ht

/-- `verify_packet` counts handshake messages with a right mac1 and nothing else; a
message it counts once the count has reached the limit is returned only with a valid
mac2, and otherwise answered with a cookie reply, refused with `UnderLoad` when it has
no source address, or refused when `dst` has no room for the reply; and the messages
returned without a valid mac2 between two resets are at most the limit, while the
count does not wrap. -/
theorem handshake_admission_bound (hB : B.Lawful) :
    (∀ (r : RateLimiter) (ds : List Datagram), r.count.toNat + ds.length < 2 ^ 64 →
      admissions B ds r ≤ r.limit.toNat - r.count.toNat) ∧
    (∀ (r : RateLimiter) (d : Datagram), r.limit ≤ r.count → Counted B r d.src →
      LoadedOutcome B r d ((verifyCall B d).run r)) ∧
    (∀ (r : RateLimiter) (d : Datagram), ¬ Counted B r d.src →
      (stateOf ((verifyCall B d).run r)).count = r.count) := by
  refine ⟨admissions_le hB, fun r d hload hc => (verifyCall_of_counted hB hc).2.2 hload,
    fun r d hc => ?_⟩
  rcases verifyCall_cases r d with hc' | ⟨e, he⟩ | ⟨p, hp, -⟩
  · exact absurd hc' hc
  · rw [he]; rfl
  · rw [hp]; rfl

theorem handshake_admission_bound_plain :
    let r := RateLimiter.new Backend.plain (.replicate 32 0) 10 (.replicate 16 0)
      (.replicate 32 0) 0
    let d : Datagram := ⟨none, .replicate 148 0, .replicate 64 0, 0⟩
    admissions Backend.plain (.replicate 20 d) r ≤ r.limit.toNat - r.count.toNat := by
  intro r d
  exact (handshake_admission_bound plain_lawful).1 r _ (by simp [r, RateLimiter.new])

/-- From the limit on, a counted initiation with a wrong mac2 and an empty `dst` is
refused with `DestinationBufferTooSmall`: it is given no cookie reply, it is not
refused with `UnderLoad`, and its mac2 is not valid. -/
theorem admission_small_dst_refused :
    let r := RateLimiter.new Backend.plain (.replicate 32 0) 0 (.replicate 16 0)
      (.replicate 32 0) 0
    let p : HandshakeInit := ⟨0, .replicate 32 0, .replicate 48 0, .replicate 28 0⟩
    let src := p.body ++
      ((Backend.plain.blake2sMac16 r.mac1Key.toList p.body).toList ++ .replicate 16 1)
    r.limit ≤ r.count ∧ Counted Backend.plain r src ∧
      ∃ r', (verifyCall Backend.plain ⟨some (.v4 (.replicate 4 0)), src, [], 0⟩).run r =
        .error (.err (.err .destinationBufferTooSmall)) r' := by
  intro r p src
  have hparse : Tunn.parseIncomingPacket src = .ok (.handshakeInit p) :=
    parseIncomingPacket_handshakeInit p (by simp [p]) (by simp [p]) (by simp)
  obtain ⟨c, hc⟩ := currentCookie_ok (B := Backend.plain) r (.v4 (.replicate 4 0)) 0
  have hmac2 : List.replicate 16 (1 : UInt8) ≠ (Backend.plain.blake2sMac16 c.toList
      (p.body ++ (Backend.plain.blake2sMac16 r.mac1Key.toList p.body).toList)).toList := by
    simp [Backend.plain]
  have hload : r.limit ≤ r.count := by decide
  exact ⟨hload, ⟨_, 0, p.body, _, hparse, rfl, by simp, rfl⟩, _,
    verifyPacket_of_small_dst r p.body _ [] 0 hparse rfl (by simp) hload hc hmac2 (by decide)⟩

end RateLimiter

end Neptun.Noise
