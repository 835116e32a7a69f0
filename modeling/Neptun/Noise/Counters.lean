import Neptun.Noise.Replay
import Neptun.Noise.Transport

/-! The two counters of a session at the top of their ranges. The sending
counter is an `AtomicUsize` that `fetch_add` wraps at the width of `usize`, so a
32-bit target reuses a nonce after `2 ^ 32` messages under one key. The replay
window computes `counter + N_BITS` and `counter + 1` in wrapping `u64`
arithmetic (release build): the largest counter moves `next` back to zero, and
counters received before are accepted again. -/
namespace Neptun.Noise

open Lib

namespace ReceivingKeyCounterValidator

theorem max_add_nBits : (0xFFFFFFFFFFFFFFFF : UInt64) + nBits = 1023 := by
  decide

/-- `u64::MAX` is not too far back for a window below 1024, and its `+ 1` wraps:
`next` becomes zero. -/
theorem markDidReceive_max (v : ReceivingKeyCounterValidator) (hv : v.next.toNat < 1024) :
    (markDidReceive (0xFFFFFFFFFFFFFFFF : UInt64)).run v =
      .ok () { ({ v with bitmap := Vector.replicate 16 0 } : ReceivingKeyCounterValidator).setBit
        0xFFFFFFFFFFFFFFFF with next := 0 } := by
  have hfar : ¬ (0xFFFFFFFFFFFFFFFF : UInt64) + nBits < v.next := by
    rw [max_add_nBits, UInt64.lt_iff_toNat_lt]
    simp only [UInt64.reduceToNat]
    omega
  have hne : (0xFFFFFFFFFFFFFFFF : UInt64) ≠ v.next := by
    intro h
    have := congrArg UInt64.toNat h
    simp only [UInt64.reduceToNat] at this
    omega
  have hge : ¬ (0xFFFFFFFFFFFFFFFF : UInt64) < v.next := by
    rw [UInt64.lt_iff_toNat_lt]
    simp only [UInt64.reduceToNat]
    omega
  have hskip := @skipTo_far v (0xFFFFFFFFFFFFFFFF : UInt64)
    (by simp only [UInt64.reduceToNat]; omega)
  -- the loops of `skip_to` are never unfolded: its far branch is `hskip`
  unfold markDidReceive
  rw [EStateM.run_bind, EStateM.run_get]
  simp only [if_neg hfar, if_neg hne, if_neg hge, hskip, EStateM.run_set]
  rfl

/-- With `next` at zero every counter is ahead of the window. -/
theorem willAccept_of_next_zero (v : ReceivingKeyCounterValidator) (hv : v.next = 0)
    (counter : UInt64) : v.willAccept counter = .ok () := by
  simp [willAccept, hv, UInt64.zero_le]

/-- From the default window: counter 0 is received, then `u64::MAX`, which moves
`next` from 1 back to 0; counter 0 is then accepted and marked a second time. -/
theorem max_counter_rewinds_window :
    ∃ v₁ v₂ v₃ : ReceivingKeyCounterValidator,
      (markDidReceive 0).run default = .ok () v₁ ∧
      (markDidReceive (0xFFFFFFFFFFFFFFFF : UInt64)).run v₁ = .ok () v₂ ∧
      v₂.next < v₁.next ∧ v₂.willAccept 0 = .ok () ∧
      (markDidReceive 0).run v₂ = .ok () v₃ := by
  have hd : (default : ReceivingKeyCounterValidator).next = 0 := rfl
  have h₁ := markDidReceive_next default (by simp [hd])
  rw [hd] at h₁
  obtain ⟨v₂, h₂, hv₂⟩ : ∃ v₂, (markDidReceive (0xFFFFFFFFFFFFFFFF : UInt64)).run
      { (default : ReceivingKeyCounterValidator).setBit 0 with next := 0 + 1 } = .ok () v₂ ∧
      v₂.next = 0 :=
    ⟨_, markDidReceive_max _ (by decide), rfl⟩
  have h₃ := markDidReceive_next v₂ (by simp [hv₂])
  rw [hv₂] at h₃
  exact ⟨_, _, _, h₁, h₂, by simp [hv₂], willAccept_of_next_zero _ hv₂ 0, h₃⟩

end ReceivingKeyCounterValidator

/-- The transparent backend on a 32-bit target. -/
def Backend.plain32 : Backend := { Backend.plain with usizeBits := 32 }

theorem plain32_lawful : Backend.plain32.Lawful where
  dh_comm := plain_lawful.dh_comm
  seal_length := plain_lawful.seal_length
  open_seal := plain_lawful.open_seal
  open_length := plain_lawful.open_length
  xseal_length := plain_lawful.xseal_length
  xopen_seal := plain_lawful.xopen_seal
  xopen_length := plain_lawful.xopen_length

namespace Session

variable {B : Backend}

theorem map_range'_mod (m a n : Nat) :
    (List.range' (a % m) n).map (fun x => UInt64.ofNat (x % m)) =
      (List.range' a n).map (fun x => UInt64.ofNat (x % m)) := by
  simp only [List.range'_eq_map_range, List.map_map]
  apply List.map_congr_left
  intro i _
  simp [Nat.mod_add_mod]

/-- The counter of the `i`-th message of a sequence: the sender's counter
advanced by `i`, modulo the width of `usize`. -/
theorem dataMessages_counter_mod (s : Session) (msgs : List (Nat × List UInt8))
    (hk : s.sendingKeyCounter < 2 ^ B.usizeBits) :
    (dataMessages B s msgs).map PacketData.counter =
      (List.range' s.sendingKeyCounter msgs.length).map
        fun n => UInt64.ofNat (n % 2 ^ B.usizeBits) := by
  induction msgs generalizing s with
  | nil => rfl
  | cons m ms ih =>
    have hk' : (afterSend B s).sendingKeyCounter < 2 ^ B.usizeBits :=
      Nat.mod_lt _ (Nat.two_pow_pos _)
    rw [dataMessages, List.map_cons, ih _ hk', List.length_cons, List.range'_succ, List.map_cons]
    simp only [afterSend, map_range'_mod]
    congr 1
    simp [dataMessage, Nat.mod_eq_of_lt hk]

/-- On a 32-bit target the `2 ^ 32`-th message after the first is sealed under the
same counter, so the same nonce and key, as the first. -/
theorem nonce_reused_on_32_bit (localIndex peerIndex : UInt32) (receivingKey sendingKey : Key) :
    let s := Session.new localIndex peerIndex receivingKey sendingKey
    let msgs := List.replicate (2 ^ 32 + 1) (0, List.replicate dataOverheadSz (0 : UInt8))
    ∃ s', (msgs.mapM fun m => formatPacketData Backend.plain32 m.1 m.2).run s =
        .ok ((dataMessages Backend.plain32 s msgs).map PacketData.bytes) s' ∧
      ((dataMessages Backend.plain32 s msgs).map PacketData.counter)[0]? = some 0 ∧
      ((dataMessages Backend.plain32 s msgs).map PacketData.counter)[2 ^ 32]? = some 0 := by
  intro s msgs
  have hbufs : ∀ m ∈ msgs, m.1 + dataOverheadSz ≤ m.2.length := by
    intro m hm
    rw [List.eq_of_mem_replicate hm, List.length_replicate]
    exact Nat.le_of_eq (Nat.zero_add _)
  have hcounters := dataMessages_counter_mod (B := Backend.plain32) s msgs
    (by simp [s, Session.new, Backend.plain32])
  have hlen : msgs.length = 2 ^ 32 + 1 := List.length_replicate
  refine ⟨_, formatPacketData_mapM plain32_lawful msgs hbufs s, ?_, ?_⟩
  · rw [hcounters, List.getElem?_map, List.getElem?_range' (by rw [hlen]; decide)]
    rfl
  · rw [hcounters, List.getElem?_map, List.getElem?_range' (by rw [hlen]; decide)]
    have hk : s.sendingKeyCounter = 0 := rfl
    have hw : Backend.plain32.usizeBits = 32 := rfl
    simp only [hk, hw, Option.map_some, Nat.one_mul, Nat.zero_add, Nat.mod_self]
    rfl

end Session

end Neptun.Noise
