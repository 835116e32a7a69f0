import Neptun.Noise.Formats
import Neptun.Noise.Tunn

/-! Transport data between two sessions of one handshake. `format_packet_data`
takes the sender's counter and increments it, and `receive_packet_data` accepts
a counter through the receiver's replay window. Sessions in step (`Paired`) stay
in step over any sequence of messages sealed and opened in order, as long as
neither counter wraps: the sender's at the width of `usize`, the receiver's
where `counter + N_BITS` overflows in `mark_did_receive`, which then refuses
even the next counter. Over the sessions, `Tunn::encapsulate` and
`Tunn::decapsulate` carry an IP packet from one tunnel to the other. -/
namespace Neptun.Noise

open Lib

namespace ReceivingKeyCounterValidator

/-- The window after the in-order counter `next` is marked. -/
def advance (v : ReceivingKeyCounterValidator) : ReceivingKeyCounterValidator :=
  { v.setBit v.next with next := v.next + 1, receiveCnt := v.receiveCnt + 1 }

theorem iterate_advance_next (v : ReceivingKeyCounterValidator) (n : Nat) :
    (advance^[n] v).next = v.next + UInt64.ofNat n := by
  induction n generalizing v with
  | zero => simp
  | succ n ih =>
    rw [Function.iterate_succ_apply, ih]
    simp only [advance, UInt64.ofNat_add, UInt64.ofNat_one]
    ac_rfl

theorem willAccept_next (v : ReceivingKeyCounterValidator) : v.willAccept v.next = .ok () := by
  simp [willAccept]

theorem next_add_nBits_lt_iff (v : ReceivingKeyCounterValidator) :
    v.next + nBits < v.next ↔ 2 ^ 64 ≤ v.next.toNat + 1024 := by
  have hv := v.next.toNat_lt
  have hb : nBits.toNat = 1024 := rfl
  rw [UInt64.lt_iff_toNat_lt, UInt64.toNat_add, hb]
  constructor
  · intro h
    by_contra hc
    rw [Nat.mod_eq_of_lt (by omega)] at h
    omega
  · intro h
    rw [Nat.mod_eq_sub_mod h, Nat.mod_eq_of_lt (by omega)]
    omega

theorem markDidReceive_next (v : ReceivingKeyCounterValidator)
    (hc : v.next.toNat + 1024 < 2 ^ 64) :
    (markDidReceive v.next).run v = .ok () { v.setBit v.next with next := v.next + 1 } := by
  have hno : ¬ v.next + nBits < v.next := by
    rw [next_add_nBits_lt_iff]
    omega
  simp [markDidReceive, EStateM.run_bind, EStateM.run_get, hno]

/-- Near the top of the counter space `counter + N_BITS` wraps, and even the
in-order counter is refused. -/
theorem markDidReceive_wrap (v : ReceivingKeyCounterValidator)
    (hc : 2 ^ 64 ≤ v.next.toNat + 1024) :
    (markDidReceive v.next).run v = .error (.err .invalidCounter) v := by
  have hyes : v.next + nBits < v.next := (next_add_nBits_lt_iff v).mpr hc
  simp [markDidReceive, EStateM.run_bind, EStateM.run_get, hyes]

end ReceivingKeyCounterValidator

namespace Session

variable {B : Backend}

theorem receivePacketData_of_open (s : Session) (packet : PacketData) (dst : List UInt8)
    {plaintext : List UInt8} (hdst : packet.encryptedEncapsulatedPacket.length ≤ dst.length)
    (hidx : packet.receiverIdx = s.receivingIndex)
    (hacc : s.receivingCounterQuickCheck packet.counter = .ok ())
    (hopen : B.aeadOpen s.receiver (counterNonce packet.counter) []
      packet.encryptedEncapsulatedPacket = some plaintext) :
    (receivePacketData B packet dst).run s =
      (do receivingCounterMark packet.counter; pure plaintext).run s := by
  have hslot := getRange_of_le (Nat.zero_le _) hdst
  have hfit : (dst.take packet.encryptedEncapsulatedPacket.length).length =
      packet.encryptedEncapsulatedPacket.length := by simpa using hdst
  simp [-bind_pure_comp, receivePacketData, Nat.not_lt.mpr hdst, EStateM.run_bind, hidx, hacc,
    hslot, copyFromSlice_of_length hfit, hopen]

theorem receivingCounterMark_next (s : Session)
    (hc : s.receivingKeyCounter.next.toNat + 1024 < 2 ^ 64) :
    (receivingCounterMark s.receivingKeyCounter.next).run s =
      .ok () { s with receivingKeyCounter := s.receivingKeyCounter.advance } := by
  simp [receivingCounterMark, onValidator, EStateM.run_bind,
    ReceivingKeyCounterValidator.markDidReceive_next _ hc]
  rfl

theorem receivingCounterMark_wrap (s : Session)
    (hc : 2 ^ 64 ≤ s.receivingKeyCounter.next.toNat + 1024) :
    (receivingCounterMark s.receivingKeyCounter.next).run s = .error (.err .invalidCounter) s := by
  simp [receivingCounterMark, onValidator, EStateM.run_bind,
    ReceivingKeyCounterValidator.markDidReceive_wrap _ hc]

/-- The sender seals under the key the receiver opens with, for the receiver's
index, and its next counter is the one the receiver's window expects. -/
structure Paired (sA sB : Session) : Prop where
  key : sA.sender = sB.receiver
  index : sA.sendingIndex = sB.receivingIndex
  counter : UInt64.ofNat sA.sendingKeyCounter = sB.receivingKeyCounter.next

/-- The session after `format_packet_data`: its counter taken and incremented. -/
def afterSend (B : Backend) (s : Session) : Session :=
  { s with sendingKeyCounter := (s.sendingKeyCounter + 1) % 2 ^ B.usizeBits }

/-- The session after an in-order data message is opened. -/
def afterReceive (s : Session) : Session :=
  { s with receivingKeyCounter := s.receivingKeyCounter.advance }

/-- One message sealed and opened in order keeps the pair in step, unless the
sender's counter wraps at the width of `usize`. -/
theorem Paired.step {sA sB : Session} (hp : Paired sA sB)
    (hk : sA.sendingKeyCounter + 1 < 2 ^ B.usizeBits) :
    Paired (afterSend B sA) (afterReceive sB) where
  key := hp.key
  index := hp.index
  counter := by
    simp [afterSend, afterReceive, ReceivingKeyCounterValidator.advance, Nat.mod_eq_of_lt hk,
      UInt64.ofNat_add, hp.counter]

section Paired

variable (hB : B.Lawful) {sA sB : Session} (hp : Paired sA sB) (payload dst : List UInt8)
  (hdst : payload.length + aeadSize ≤ dst.length)
include hB hp hdst

theorem receivePacketData_dataMessage_eq :
    (receivePacketData B (dataMessage B sA payload) dst).run sB =
      (do receivingCounterMark sB.receivingKeyCounter.next; pure payload).run sB := by
  have hlen : (dataMessage B sA payload).encryptedEncapsulatedPacket.length ≤ dst.length := by
    simpa [dataMessage, hB.seal_length, aeadSize] using hdst
  rw [@receivePacketData_of_open B sB _ dst payload hlen (by simp [dataMessage, hp.index])
    (by simp [dataMessage, receivingCounterQuickCheck, hp.counter,
      ReceivingKeyCounterValidator.willAccept_next])
    (by simp [dataMessage, ← hp.key, hB.open_seal])]
  simp [dataMessage, hp.counter]

theorem receivePacketData_dataMessage (hc : sB.receivingKeyCounter.next.toNat + 1024 < 2 ^ 64) :
    (receivePacketData B (dataMessage B sA payload) dst).run sB = .ok payload (afterReceive sB) := by
  rw [receivePacketData_dataMessage_eq hB hp payload dst hdst]
  simp [-bind_pure_comp, EStateM.run_bind, receivingCounterMark_next _ hc, afterReceive]

theorem receivePacketData_dataMessage_wrap
    (hc : 2 ^ 64 ≤ sB.receivingKeyCounter.next.toNat + 1024) :
    (receivePacketData B (dataMessage B sA payload) dst).run sB =
      .error (.err .invalidCounter) sB := by
  rw [receivePacketData_dataMessage_eq hB hp payload dst hdst]
  simp [-bind_pure_comp, EStateM.run_bind, receivingCounterMark_wrap _ hc]

end Paired

/-! ## Sequences of messages -/

/-- The payload `format_packet_data` seals from a length and a buffer: the bytes
at `DATA_OFFSET`. -/
def payloadAt (m : Nat × List UInt8) : List UInt8 := (m.2.drop dataOffset).take m.1

/-- The data messages a session seals for a sequence of payloads, in order. -/
def dataMessages (B : Backend) (s : Session) : List (Nat × List UInt8) → List PacketData
  | [] => []
  | m :: ms => dataMessage B s (payloadAt m) :: dataMessages B (afterSend B s) ms

theorem formatPacketData_mapM (hB : B.Lawful) (msgs : List (Nat × List UInt8))
    (hbufs : ∀ m ∈ msgs, m.1 + dataOverheadSz ≤ m.2.length) (s : Session) :
    (msgs.mapM fun m => formatPacketData B m.1 m.2).run s =
      .ok ((dataMessages B s msgs).map PacketData.bytes) ((afterSend B)^[msgs.length] s) := by
  induction msgs generalizing s with
  | nil => rfl
  | cons m ms ih =>
    have hm : (formatPacketData B m.1 m.2).run s =
        .ok (dataMessage B s (payloadAt m)).bytes (afterSend B s) :=
      formatPacketData_run hB s m.1 m.2 (hbufs m (by simp))
    have hms := ih (fun m' hm' => hbufs m' (by simp [hm'])) (afterSend B s)
    simp only [List.mapM_cons, EStateM.run_bind, hm, hms]
    rfl

theorem length_payloadAt {m : Nat × List UInt8} (h : m.1 + dataOverheadSz ≤ m.2.length) :
    (payloadAt m).length = m.1 := by
  simp [payloadAt, dataOverheadSz, dataOffset] at h ⊢
  omega

theorem parseIncomingPacket_dataMessage (s : Session) (payload : List UInt8) :
    Tunn.parseIncomingPacket (dataMessage B s payload).bytes =
      .ok (.packetData (dataMessage B s payload)) :=
  parseIncomingPacket_packetData _ (by simp [dataMessage, aeadSize])

/-- Every message of a sequence is a data message of the sender, for its peer's index. -/
theorem exists_of_mem_dataMessages {s : Session} {msgs : List (Nat × List UInt8)}
    {d : PacketData} (hd : d ∈ dataMessages B s msgs) :
    ∃ s' payload, d = dataMessage B s' payload ∧ s'.sendingIndex = s.sendingIndex := by
  induction msgs generalizing s with
  | nil => cases hd
  | cons m ms ih =>
    rcases List.mem_cons.mp hd with rfl | hd
    · exact ⟨s, _, rfl, rfl⟩
    · obtain ⟨s', payload, rfl, hs'⟩ := ih hd
      exact ⟨s', payload, rfl, hs'⟩

theorem parseIncomingPacket_of_mem_dataMessages {s : Session} {msgs : List (Nat × List UInt8)}
    {d : PacketData} (hd : d ∈ dataMessages B s msgs) :
    Tunn.parseIncomingPacket d.bytes = .ok (.packetData d) := by
  obtain ⟨s', payload, rfl, -⟩ := exists_of_mem_dataMessages hd
  exact parseIncomingPacket_dataMessage s' payload

theorem receiverIdx_of_mem_dataMessages {s : Session} {msgs : List (Nat × List UInt8)}
    {d : PacketData} (hd : d ∈ dataMessages B s msgs) : d.receiverIdx = s.sendingIndex := by
  obtain ⟨s', payload, rfl, hs'⟩ := exists_of_mem_dataMessages hd
  exact hs'

/-- The counters of a sequence are consecutive while the sender's does not wrap. -/
theorem dataMessages_counter (s : Session) (msgs : List (Nat × List UInt8))
    (hk : s.sendingKeyCounter + msgs.length ≤ 2 ^ B.usizeBits) :
    (dataMessages B s msgs).map PacketData.counter =
      (List.range' s.sendingKeyCounter msgs.length).map UInt64.ofNat := by
  induction msgs generalizing s with
  | nil => rfl
  | cons m ms ih =>
    cases ms with
    | nil => rfl
    | cons m' ms' =>
      have hk' : s.sendingKeyCounter + 1 < 2 ^ B.usizeBits := by simp at hk; omega
      have hrest := ih (afterSend B s) (by simp [afterSend, Nat.mod_eq_of_lt hk'] at hk ⊢; omega)
      rw [dataMessages, List.map_cons, hrest, List.length_cons, List.range'_succ, List.map_cons]
      simp only [afterSend, Nat.mod_eq_of_lt hk']
      rfl

theorem afterReceive_next_toNat (s : Session) (h : s.receivingKeyCounter.next.toNat + 1 < 2 ^ 64) :
    (afterReceive s).receivingKeyCounter.next.toNat = s.receivingKeyCounter.next.toNat + 1 := by
  simp [afterReceive, ReceivingKeyCounterValidator.advance, UInt64.toNat_add]
  omega

/-- Messages opened in the order they were sealed return their payloads, while
neither counter wraps. -/
theorem receivePacketData_mapM (hB : B.Lawful) (msgs : List (Nat × List UInt8))
    (dst : List UInt8) (hdst : ∀ m ∈ msgs, (payloadAt m).length + aeadSize ≤ dst.length)
    {sA sB : Session} (hp : Paired sA sB)
    (hk : sA.sendingKeyCounter + msgs.length ≤ 2 ^ B.usizeBits)
    (hc : sB.receivingKeyCounter.next.toNat + msgs.length + 1024 ≤ 2 ^ 64) :
    ((dataMessages B sA msgs).mapM fun d => receivePacketData B d dst).run sB =
      .ok (msgs.map payloadAt) (afterReceive^[msgs.length] sB) := by
  induction msgs generalizing sA sB with
  | nil => rfl
  | cons m ms ih =>
    have h1 := receivePacketData_dataMessage hB hp (payloadAt m) dst (hdst m (by simp))
      (by simp at hc; omega)
    cases ms with
    | nil =>
      simp only [dataMessages, List.mapM_cons, EStateM.run_bind, h1]
      rfl
    | cons m' ms' =>
      have hk' : sA.sendingKeyCounter + 1 < 2 ^ B.usizeBits := by simp at hk; omega
      have hrest := ih (fun m'' h'' => hdst m'' (by simp_all)) (hp.step hk')
        (by simp [afterSend, Nat.mod_eq_of_lt hk'] at hk ⊢; omega)
        (by rw [afterReceive_next_toNat sB (by simp at hc; omega)]; simp at hc ⊢; omega)
      rw [dataMessages, List.mapM_cons]
      simp only [EStateM.run_bind, h1, hrest]
      rfl

theorem dataMessages_append (s : Session) (msgs : List (Nat × List UInt8)) (m : Nat × List UInt8) :
    dataMessages B s (msgs ++ [m]) =
      dataMessages B s msgs ++ [dataMessage B ((afterSend B)^[msgs.length] s) (payloadAt m)] := by
  induction msgs generalizing s with
  | nil => rfl
  | cons m' ms ih =>
    rw [List.cons_append, dataMessages, dataMessages, ih, List.length_cons,
      Function.iterate_succ_apply]
    rfl

theorem Paired.iterate {sA sB : Session} (hp : Paired sA sB) (n : Nat)
    (hk : sA.sendingKeyCounter + n < 2 ^ B.usizeBits) :
    Paired ((afterSend B)^[n] sA) (afterReceive^[n] sB) := by
  induction n generalizing sA sB with
  | zero => exact hp
  | succ n ih =>
    have hk' : sA.sendingKeyCounter + 1 < 2 ^ B.usizeBits := by omega
    rw [Function.iterate_succ_apply, Function.iterate_succ_apply]
    exact ih (hp.step hk') (by simp [afterSend, Nat.mod_eq_of_lt hk']; omega)

theorem receivingKeyCounter_iterate_afterReceive (s : Session) (n : Nat) :
    (afterReceive^[n] s).receivingKeyCounter = ReceivingKeyCounterValidator.advance^[n] s.receivingKeyCounter := by
  induction n generalizing s with
  | zero => rfl
  | succ n ih => exact ih (afterReceive s)

/-- The message after the last that `receivePacketData_mapM` allows is refused:
its counter is the window's `next`, and `next + N_BITS` has wrapped. -/
theorem receivePacketData_mapM_wrap (hB : B.Lawful) (msgs : List (Nat × List UInt8))
    (m : Nat × List UInt8) (dst : List UInt8)
    (hdst : ∀ m' ∈ msgs ++ [m], (payloadAt m').length + aeadSize ≤ dst.length)
    {sA sB : Session} (hp : Paired sA sB)
    (hk : sA.sendingKeyCounter + msgs.length < 2 ^ B.usizeBits)
    (hc : sB.receivingKeyCounter.next.toNat + msgs.length + 1024 = 2 ^ 64) :
    ((dataMessages B sA (msgs ++ [m])).mapM fun d => receivePacketData B d dst).run sB =
      .error (.err .invalidCounter) (afterReceive^[msgs.length] sB) := by
  have hrun := receivePacketData_mapM hB msgs dst (fun m' h' => hdst m' (by simp [h'])) hp hk.le
    (by omega)
  have hnext : 2 ^ 64 ≤ (afterReceive^[msgs.length] sB).receivingKeyCounter.next.toNat + 1024 := by
    rw [receivingKeyCounter_iterate_afterReceive, ReceivingKeyCounterValidator.iterate_advance_next,
      UInt64.toNat_add, UInt64.toNat_ofNat', Nat.add_mod_mod, Nat.mod_eq_of_lt (by omega)]
    omega
  have hlast := receivePacketData_dataMessage_wrap hB (hp.iterate msgs.length hk) (payloadAt m) dst
    (hdst m (by simp)) hnext
  rw [dataMessages_append, List.mapM_append]
  simp only [EStateM.run_bind, hrun, List.mapM_cons, hlast]

theorem paired_new (i j : UInt32) (k₁ k₂ : Key) : Paired (new i j k₁ k₂) (new j i k₂ k₁) where
  key := rfl
  index := rfl
  counter := rfl

end Session

/-! ## Through the tunnels -/

theorem RateLimiter.verifyPacket_packetData (B : Backend) (r : RateLimiter)
    (srcAddr : Option IpAddr) (p : PacketData) (dst : List UInt8) (now : Nat)
    (hp : aeadSize ≤ p.encryptedEncapsulatedPacket.length) :
    (RateLimiter.verifyPacket B srcAddr p.bytes dst now).run r = .ok (.packetData p) r := by
  simp [RateLimiter.verifyPacket, parseIncomingPacket_packetData p hp, Packet.handshakeSenderIdx]

namespace Tunn

variable {B : Backend}

theorem encapsulateInPlace_run (hB : B.Lawful) (env : CallEnv) (t : Tunn) (len : Nat)
    (buf : List UInt8) {s : Session} (hs : t.sessions[slot t.current] = some s)
    (hbuf : len + dataOverheadSz ≤ buf.length) :
    ∃ t', (encapsulateInPlace B env len buf).run t =
        .ok (.writeToNetwork (Session.dataMessage B s ((buf.drop dataOffset).take len)).bytes) t' ∧
      t'.sessions[slot t.current] = some (Session.afterSend B s) := by
  have hrun := Session.formatPacketData_run hB s len buf hbuf
  simp only [getElem_vector_fin] at hs ⊢
  simp [-bind_pure_comp, encapsulateInPlace, EStateM.run_bind, hs, onSession, hrun]
  -- keepalives skip the data timer; neither path touches the sessions again
  split <;> exact ⟨_, rfl, by simp [timerTick, addTx, Session.afterSend]⟩

/-- `encapsulate` copies the packet to `DATA_OFFSET` and encapsulates it there. -/
theorem encapsulate_eq (env : CallEnv) (src dst : List UInt8)
    (hfit : src.length + dataOffset ≤ dst.length) :
    encapsulate B env src dst = encapsulateInPlace B env src.length
      (dst.take dataOffset ++ (src ++ dst.drop (src.length + dataOffset))) := by
  have hslot : getRange dst dataOffset (src.length + dataOffset) =
      some ((dst.drop dataOffset).take src.length) := by
    rw [getRange_of_le (by omega) hfit]
    simp
  have hlen : ((dst.drop dataOffset).take src.length).length = src.length := by
    simp [dataOffset] at hfit ⊢
    omega
  simp [-bind_pure_comp, encapsulate, hslot, copyFromSlice_of_length hlen]

theorem encapsulate_run (hB : B.Lawful) (env : CallEnv) (t : Tunn) (src dst : List UInt8)
    {s : Session} (hs : t.sessions[slot t.current] = some s)
    (hdst : src.length + dataOverheadSz ≤ dst.length) :
    ∃ t', (encapsulate B env src dst).run t =
        .ok (.writeToNetwork (Session.dataMessage B s src).bytes) t' ∧
      t'.sessions[slot t.current] = some (Session.afterSend B s) := by
  have hfit : src.length + dataOffset ≤ dst.length := by
    simp [dataOverheadSz, dataOffset] at hdst ⊢
    omega
  have hbuf : src.length + dataOverheadSz ≤
      (dst.take dataOffset ++ (src ++ dst.drop (src.length + dataOffset))).length := by
    simp [dataOverheadSz, dataOffset] at hdst ⊢
    omega
  have hpayload : ((dst.take dataOffset ++ (src ++ dst.drop (src.length + dataOffset))).drop
      dataOffset).take src.length = src := by
    have h16 : (dst.take dataOffset).length = dataOffset := by
      simp [dataOffset] at hfit ⊢
      omega
    rw [List.drop_left' h16, List.take_left' (rfl : src.length = src.length)]
  rw [encapsulate_eq env src dst hfit]
  obtain ⟨t', hrun, ht'⟩ := encapsulateInPlace_run hB env t src.length _ hs hbuf
  rw [hpayload] at hrun
  exact ⟨t', hrun, ht'⟩

/-- A buffer too short for the payload and the data overhead: the session refuses
it before it draws a counter, and the tunnel is left as it was. -/
theorem encapsulateInPlace_short (env : CallEnv) (t : Tunn) (len : Nat) (buf : List UInt8)
    {s : Session} (hs : t.sessions[slot t.current] = some s)
    (hbuf : buf.length < len + dataOverheadSz) :
    (encapsulateInPlace B env len buf).run t = .ok (.err .incorrectPacketLength) t := by
  have hrun : (Session.formatPacketData B len buf).run s = .error (.err .incorrectPacketLength) s := by
    simp only [Session.formatPacketData, if_pos hbuf]
    rfl
  simp only [getElem_vector_fin] at hs
  -- the session is written back as it was read
  have hset : { t with sessions := t.sessions.set (slot t.current) (some s) } = t := by
    rw [← hs, Vector.set_getElem_self]
  simp [-bind_pure_comp, encapsulateInPlace, EStateM.run_bind, hs, onSession, hrun, hset]

/-- An empty datagram flushes the queue by one packet. -/
theorem decapsulate_nil (env : CallEnv) (srcAddr : Option IpAddr) (dst : List UInt8) :
    decapsulate B env srcAddr [] dst = sendQueuedPacket B env dst := by
  simp [decapsulate]

/-- Flushing a queued packet that the session cannot seal into `dst` puts it back
at the head of the queue and reports `Done`: the tunnel is left as it was, and the
next flush meets the same packet. -/
theorem sendQueuedPacket_short (env : CallEnv) (t : Tunn) (dst : List UInt8) {p : List UInt8}
    {q : List (List UInt8)} (hq : t.packetQueue = p :: q) (hdepth : q.length < maxQueueDepth)
    {s : Session} (hs : t.sessions[slot t.current] = some s)
    (hfit : p.length + dataOffset ≤ dst.length) (hdst : dst.length < p.length + dataOverheadSz) :
    (sendQueuedPacket B env dst).run t = .ok .done t := by
  have hbuf : (dst.take dataOffset ++ (p ++ dst.drop (p.length + dataOffset))).length <
      p.length + dataOverheadSz := by
    simp [dataOffset, dataOverheadSz] at hfit hdst ⊢
    omega
  have henc := encapsulateInPlace_short (B := B) env { t with packetQueue := q } p.length _ hs hbuf
  have hback : ({ t with packetQueue := q } : Tunn).requeuePacket p = t := by
    rw [requeuePacket, if_pos hdepth]
    cases t
    cases hq
    rfl
  simp [-bind_pure_comp, sendQueuedPacket, dequeuePacket, EStateM.run_bind, hq,
    encapsulate_eq env p dst hfit, henc, hback]

theorem ne_nil_of_ipHeader {p : List UInt8} {h : Option (Nat × IpAddr)}
    (hip : ipHeader p = .ok h) : p ≠ [] := by
  rintro rfl
  simp [ipHeader] at hip
  cases hip

/-- A decrypted packet whose header gives its own length goes to the tunnel whole. -/
theorem validateDecapsulatedPacket_of_ipHeader (t : Tunn) {p : List UInt8} {addr : IpAddr}
    (hip : ipHeader p = .ok (some (p.length, addr))) :
    (validateDecapsulatedPacket p).run t =
      .ok (.writeToTunnel p addr)
        ((t.timerTick .timeLastDataPacketReceived).addRx (messageDataLen p.length)) := by
  have hne : p.length ≠ 0 := by simpa using ne_nil_of_ipHeader hip
  simp [-bind_pure_comp, validateDecapsulatedPacket, hne, hip, EStateM.run_bind, getRange_self]

/-- A data message is passed by the rate limiter as it is, and its plaintext,
once the session in its slot opens it, is what the tunnel validates. -/
theorem decapsulate_packetData (env : CallEnv) (t : Tunn) (srcAddr : Option IpAddr)
    (p : PacketData) (dst : List UInt8) (hp : aeadSize ≤ p.encryptedEncapsulatedPacket.length)
    {s s' : Session} {plaintext : List UInt8} (hs : t.sessions[slot p.receiverIdx.toNat] = some s)
    (hrecv : (Session.receivePacketData B p dst).run s = .ok plaintext s')
    {res : TunnResult} {t' : Tunn}
    (hval : (validateDecapsulatedPacket plaintext).run
      (({ t with sessions := t.sessions.set (slot p.receiverIdx.toNat) (some s') }.setCurrentSession
        p.receiverIdx.toNat).timerTick .timeLastPacketReceived) = .ok res t') :
    (decapsulate B env srcAddr p.bytes dst).run t = .ok res t' := by
  have hne : p.bytes.isEmpty = false := by
    cases hb : p.bytes with
    | nil => simpa [PacketData.bytes] using congrArg List.length hb
    | cons => rfl
  simp only [getElem_vector_fin] at hs
  simp [-bind_pure_comp, decapsulate, hne, EStateM.run_bind,
    RateLimiter.verifyPacket_packetData B _ srcAddr p _ env.now hp, handleVerifiedPacket, handleData,
    hs, onSession, hrecv, hval]

end Tunn

section RoundTrip

variable {B : Backend}

theorem data_round_trip (hB : B.Lawful) :
    (∀ (sA sB : Session) (msgs : List (Nat × List UInt8)) (dst : List UInt8),
      Session.Paired sA sB →
      (∀ m ∈ msgs, m.1 + dataOverheadSz ≤ m.2.length ∧ m.1 + aeadSize ≤ dst.length) →
      sA.sendingKeyCounter + msgs.length ≤ 2 ^ B.usizeBits →
      sB.receivingKeyCounter.next.toNat + msgs.length ≤ 2 ^ 64 - 1024 →
      let ds := Session.dataMessages B sA msgs
      ∃ sA' sB', (msgs.mapM fun m => Session.formatPacketData B m.1 m.2).run sA =
          .ok (ds.map PacketData.bytes) sA' ∧
        (∀ d ∈ ds, Tunn.parseIncomingPacket d.bytes = .ok (.packetData d) ∧
          d.receiverIdx = sB.receivingIndex) ∧
        ds.map PacketData.counter =
          (List.range' sA.sendingKeyCounter msgs.length).map UInt64.ofNat ∧
        (ds.mapM fun d => Session.receivePacketData B d dst).run sB =
          .ok (msgs.map Session.payloadAt) sB') ∧
    (∀ (envA envB : CallEnv) (tA tB : Tunn) (sA sB : Session) (p dstA dstB : List UInt8)
      (srcAddr : Option IpAddr) (addr : IpAddr),
      tA.sessions[slot tA.current] = some sA →
      tB.sessions[slot sA.sendingIndex.toNat] = some sB →
      Session.Paired sA sB →
      sB.receivingKeyCounter.next.toNat + 1024 < 2 ^ 64 →
      Tunn.ipHeader p = .ok (some (p.length, addr)) →
      p.length + dataOverheadSz ≤ dstA.length → p.length + aeadSize ≤ dstB.length →
      ∃ datagram tA' tB', (Tunn.encapsulate B envA p dstA).run tA = .ok (.writeToNetwork datagram) tA' ∧
        (Tunn.decapsulate B envB srcAddr datagram dstB).run tB = .ok (.writeToTunnel p addr) tB') := by
  constructor
  · intro sA sB msgs dst hp hm hk hc ds
    refine ⟨_, _, Session.formatPacketData_mapM hB msgs (fun m h => (hm m h).1) sA, ?_, ?_,
      Session.receivePacketData_mapM hB msgs dst ?_ hp hk (by omega)⟩
    · intro d hd
      exact ⟨Session.parseIncomingPacket_of_mem_dataMessages hd,
        (Session.receiverIdx_of_mem_dataMessages hd).trans hp.index⟩
    · exact Session.dataMessages_counter sA msgs hk
    · intro m h
      rw [Session.length_payloadAt (hm m h).1]
      exact (hm m h).2
  · intro envA envB tA tB sA sB p dstA dstB srcAddr addr hsA hsB hp hc hip hdA hdB
    obtain ⟨tA', henc, -⟩ := Tunn.encapsulate_run hB envA tA p dstA hsA hdA
    have hrecv := Session.receivePacketData_dataMessage hB hp p dstB hdB hc
    refine ⟨_, tA', _, henc, Tunn.decapsulate_packetData envB tB srcAddr _ dstB
      (by simp [Session.dataMessage, aeadSize]) hsB hrecv
      (Tunn.validateDecapsulatedPacket_of_ipHeader _ hip)⟩

/-- A fresh pair of sessions carries a 16-byte payload. -/
theorem data_round_trip_fresh_pair :
    let sA := Session.new 1 2 (.replicate 32 0) (.replicate 32 1)
    let sB := Session.new 2 1 (.replicate 32 1) (.replicate 32 0)
    let msgs := [(16, List.replicate 16 0 ++ List.replicate 16 7 ++ List.replicate 16 0)]
    let ds := Session.dataMessages Backend.plain sA msgs
    ∃ sA' sB', (msgs.mapM fun m => Session.formatPacketData Backend.plain m.1 m.2).run sA =
        .ok (ds.map PacketData.bytes) sA' ∧
      (∀ d ∈ ds, Tunn.parseIncomingPacket d.bytes = .ok (.packetData d) ∧
        d.receiverIdx = sB.receivingIndex) ∧
      ds.map PacketData.counter = (List.range' sA.sendingKeyCounter msgs.length).map UInt64.ofNat ∧
      (ds.mapM fun d => Session.receivePacketData Backend.plain d (List.replicate 32 0)).run sB =
        .ok (msgs.map Session.payloadAt) sB' :=
  (data_round_trip plain_lawful).1 _ _ _ _ (Session.paired_new 1 2 _ _) (by decide)
    (by simp [Session.new, Backend.plain]) (by decide)

/-- The counterexample to an unbounded sequence: from a fresh pair, the
`2^64 - 1023`-th message is sealed but refused by the receiver. -/
theorem data_round_trip_refused_at_counter_limit :
    ∃ sA' sB' : Session,
      let sA := Session.new 1 2 (.replicate 32 0) (.replicate 32 1)
      let sB := Session.new 2 1 (.replicate 32 1) (.replicate 32 0)
      let msgs := List.replicate (2 ^ 64 - 1023) (0, List.replicate 32 0)
      let ds := Session.dataMessages Backend.plain sA msgs
      (msgs.mapM fun m => Session.formatPacketData Backend.plain m.1 m.2).run sA =
          .ok (ds.map PacketData.bytes) sA' ∧
        (ds.mapM fun d => Session.receivePacketData Backend.plain d (List.replicate 16 0)).run sB =
          .error (.err .invalidCounter) sB' := by
  refine ⟨(Session.afterSend Backend.plain)^[(List.replicate (2 ^ 64 - 1023)
      ((0 : Nat), List.replicate 32 (0 : UInt8))).length]
      (Session.new 1 2 (.replicate 32 0) (.replicate 32 1)),
    Session.afterReceive^[2 ^ 64 - 1024] (Session.new 2 1 (.replicate 32 1) (.replicate 32 0)), ?_⟩
  intro sA sB msgs ds
  have hmsgs : msgs = List.replicate (2 ^ 64 - 1024) (0, List.replicate 32 0) ++
      [(0, List.replicate 32 0)] := by
    rw [← List.replicate_succ']
    rfl
  refine ⟨Session.formatPacketData_mapM plain_lawful msgs ?_ sA, ?_⟩
  · intro m hm
    rw [List.eq_of_mem_replicate hm]
    simp [dataOverheadSz]
  · have hwrap := Session.receivePacketData_mapM_wrap plain_lawful
      (List.replicate (2 ^ 64 - 1024) (0, List.replicate 32 0)) (0, List.replicate 32 0)
      (List.replicate 16 0) ?_ (Session.paired_new 1 2 (.replicate 32 0) (.replicate 32 1)) ?_ ?_
    · rw [List.length_replicate, ← hmsgs] at hwrap
      exact hwrap
    · intro m hm
      have hm' : m = (0, List.replicate 32 0) := by
        rcases List.mem_append.mp hm with h | h
        · exact List.eq_of_mem_replicate h
        · exact List.mem_singleton.mp h
      subst hm'
      simp [Session.payloadAt, aeadSize]
    · rw [List.length_replicate]
      decide
    · rw [List.length_replicate]
      decide

end RoundTrip

end Neptun.Noise
