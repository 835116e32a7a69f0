import Neptun.Lib.Imperative
import Neptun.Noise.Crypto

/-! Sessions of `session.rs`: the replay window over received counters, the
keys and counters of one session, and the data messages it seals and opens. The
window is a bitmap of 16 words of 64 bits indexed by the counter modulo 1024,
moved forward by three clearing loops. All counters are `u64` and wrap as the
release build does; the sending counter is a `usize`. -/
namespace Neptun.Noise
open Lib

def wordSize : UInt64 := 64
def nWords : UInt64 := 16
def nBits : UInt64 := wordSize * nWords

/-- Iterations after which a loop is taken not to exit: a loop over a 64-bit index
that exits without wrapping iterates fewer times. -/
def loopFuel : Nat := 2 ^ 64

structure ReceivingKeyCounterValidator where
  next : UInt64
  receiveCnt : UInt64
  bitmap : Vector UInt64 16
  deriving DecidableEq, Repr

instance : Inhabited ReceivingKeyCounterValidator :=
  ⟨{ next := 0, receiveCnt := 0, bitmap := Vector.replicate 16 0 }⟩

namespace ReceivingKeyCounterValidator

theorem word_lt (idx : UInt64) : ((idx % nBits) / wordSize).toNat < 16 := by
  have hb : nBits.toNat = 1024 := rfl
  have hw : wordSize.toNat = 64 := rfl
  simp only [UInt64.toNat_div, UInt64.toNat_mod, hb, hw]
  omega

/-- The word holding the bit of `idx`. -/
def wordOf (idx : UInt64) : Fin 16 := ⟨((idx % nBits) / wordSize).toNat, word_lt idx⟩

def setBit (v : ReceivingKeyCounterValidator) (idx : UInt64) : ReceivingKeyCounterValidator :=
  let bit := idx % nBits % wordSize
  { v with bitmap := v.bitmap.set (wordOf idx) (v.bitmap[wordOf idx] ||| ((1 : UInt64) <<< bit)) }

def clearBit (v : ReceivingKeyCounterValidator) (idx : UInt64) : ReceivingKeyCounterValidator :=
  let bit := idx % nBits % wordSize
  { v with bitmap := v.bitmap.set (wordOf idx) (v.bitmap[wordOf idx] &&& ~~~((1 : UInt64) <<< bit)) }

/-- Clear the word that contains `idx`. -/
def clearWord (v : ReceivingKeyCounterValidator) (idx : UInt64) : ReceivingKeyCounterValidator :=
  { v with bitmap := v.bitmap.set (wordOf idx) 0 }

def checkBit (v : ReceivingKeyCounterValidator) (idx : UInt64) : Bool :=
  let bit := idx % nBits % wordSize
  ((v.bitmap[wordOf idx] >>> bit) &&& 1) == 1

@[simp] theorem setBit_next (v : ReceivingKeyCounterValidator) (idx : UInt64) :
    (v.setBit idx).next = v.next := rfl
@[simp] theorem setBit_receiveCnt (v : ReceivingKeyCounterValidator) (idx : UInt64) :
    (v.setBit idx).receiveCnt = v.receiveCnt := rfl
@[simp] theorem clearBit_next (v : ReceivingKeyCounterValidator) (idx : UInt64) :
    (v.clearBit idx).next = v.next := rfl
@[simp] theorem clearBit_receiveCnt (v : ReceivingKeyCounterValidator) (idx : UInt64) :
    (v.clearBit idx).receiveCnt = v.receiveCnt := rfl
@[simp] theorem clearWord_next (v : ReceivingKeyCounterValidator) (idx : UInt64) :
    (v.clearWord idx).next = v.next := rfl
@[simp] theorem clearWord_receiveCnt (v : ReceivingKeyCounterValidator) (idx : UInt64) :
    (v.clearWord idx).receiveCnt = v.receiveCnt := rfl

/-- Ok when the counter was not yet received and is not too far back. -/
def willAccept (v : ReceivingKeyCounterValidator) (counter : UInt64) :
    Except WireGuardError Unit :=
  if counter ≥ v.next then .ok ()
  else if counter + nBits < v.next then .error .invalidCounter
  else if !v.checkBit counter then .ok ()
  else .error .duplicateCounter

/-- `while i % WORD_SIZE != 0 && i < counter { clear_bit(i); i += 1 }` -/
def alignLoop (counter : UInt64) :
    ReceivingKeyCounterValidator × UInt64 → Option (ReceivingKeyCounterValidator × UInt64) :=
  loopWhile (fun st => st.2 % wordSize != 0 && st.2 < counter)
    (fun st => (st.1.clearBit st.2, st.2 + 1)) loopFuel

/-- `while i + WORD_SIZE < counter { clear_word(i); i = (i + WORD_SIZE) & 0u64.wrapping_sub(WORD_SIZE) }` -/
def wordLoop (counter : UInt64) :
    ReceivingKeyCounterValidator × UInt64 → Option (ReceivingKeyCounterValidator × UInt64) :=
  loopWhile (fun st => st.2 + wordSize < counter)
    (fun st => (st.1.clearWord st.2, (st.2 + wordSize) &&& (0 - wordSize))) loopFuel

/-- `while i < counter { clear_bit(i); i += 1 }` -/
def tailLoop (counter : UInt64) :
    ReceivingKeyCounterValidator × UInt64 → Option (ReceivingKeyCounterValidator × UInt64) :=
  loopWhile (fun st => st.2 < counter) (fun st => (st.1.clearBit st.2, st.2 + 1)) loopFuel

/-- The window moved up to `counter`: every cell is cleared when the jump is a whole
window or more, otherwise the three loops clear the cells of `[next, counter)`;
`none` when a loop does not exit. -/
def skipTo (v : ReceivingKeyCounterValidator) (counter : UInt64) :
    Option ReceivingKeyCounterValidator :=
  if counter - v.next ≥ nBits then
    some { v with bitmap := Vector.replicate 16 0 }
  else do
    let s₁ ← alignLoop counter (v, v.next)
    let s₂ ← wordLoop counter s₁
    let s₃ ← tailLoop counter s₂
    pure s₃.1

/-- Marks the counter as received, and returns Ok if it is still good. The early
returns of the source are the `else` branches here. -/
def markDidReceive (counter : UInt64) :
    EStateM (Fault WireGuardError) ReceivingKeyCounterValidator Unit := do
  let v ← get
  if counter + nBits < v.next then throw (.err .invalidCounter)
  if counter = v.next then
    -- in order: mark the bit and increment the counter
    set { v.setBit counter with next := v.next + 1 }
  else if counter < v.next then
    -- out of order: a set bit is a replay
    if v.checkBit counter then throw (.err .invalidCounter)
    set (v.setBit counter)
  else
    let some w := v.skipTo counter | throw .diverge
    set { w.setBit counter with next := counter + 1 }

end ReceivingKeyCounterValidator

/-- One session: its two indices, the 32 bytes of each key, the sending counter
(an `AtomicUsize`) and the replay window behind its mutex. -/
structure Session where
  receivingIndex : UInt32
  sendingIndex : UInt32
  receiver : Vector UInt8 32
  sender : Vector UInt8 32
  sendingKeyCounter : Nat
  receivingKeyCounter : ReceivingKeyCounterValidator
  deriving DecidableEq, Repr

namespace Session

/-- `Session::new`: the indices, the keys, and both counters at zero. Building the two
`LessSafeKey`s from 32-byte keys cannot fail, so the source's `Result` is always Ok. -/
def new (localIndex peerIndex : UInt32) (receivingKey sendingKey : Vector UInt8 32) : Session where
  receivingIndex := localIndex
  sendingIndex := peerIndex
  receiver := receivingKey
  sender := sendingKey
  sendingKeyCounter := 0
  receivingKeyCounter := default

/-- The window behind the session's mutex, as a field the methods below run on. -/
def onValidator {α : Type} (m : EStateM (Fault WireGuardError) ReceivingKeyCounterValidator α) :
    EStateM (Fault WireGuardError) Session α :=
  focus (·.receivingKeyCounter) (fun s v => { s with receivingKeyCounter := v }) m

/-- Ok if the receiving counter is good to use. -/
def receivingCounterQuickCheck (s : Session) (counter : UInt64) : Except WireGuardError Unit :=
  s.receivingKeyCounter.willAccept counter

/-- Ok if the receiving counter is good to use, and marks it as used. -/
def receivingCounterMark (counter : UInt64) : EStateM (Fault WireGuardError) Session Unit :=
  onValidator do
    ReceivingKeyCounterValidator.markDidReceive counter
    modify fun v => { v with receiveCnt := v.receiveCnt + 1 }

def localIndex (s : Session) : Nat := s.receivingIndex.toNat

/-- Seal the `payloadLen` bytes at `DATA_OFFSET` of `packetBuffer` into a data
message: the bytes of the slice returned. The counter is taken before sealing. -/
def formatPacketData (B : Backend) (payloadLen : Nat) (packetBuffer : List UInt8) :
    EStateM (Fault WireGuardError) Session (List UInt8) := do
  if packetBuffer.length < payloadLen + dataOverheadSz then
    throw (.err .incorrectPacketLength)
  let s ← get
  -- `fetch_add` on an `AtomicUsize` wraps at the width of `usize`
  set { s with sendingKeyCounter := (s.sendingKeyCounter + 1) % 2 ^ B.usizeBits }
  let sendingKeyCounter := UInt64.ofNat s.sendingKeyCounter
  let (messageType, rest) ← splitAt packetBuffer 4
  let (receiverIndex, rest) ← splitAt rest 4
  let (counter, data) ← splitAt rest 8
  let messageType ← copyFromSlice messageType (u32ToLe Noise.data)
  let receiverIndex ← copyFromSlice receiverIndex (u32ToLe s.sendingIndex)
  let counter ← copyFromSlice counter (u64ToLe sendingKeyCounter)
  let some payload := getRange data 0 payloadLen | throw (.err .invalidLength)
  let (sealed, tag) := B.aeadSeal s.sender (counterNonce sendingKeyCounter) [] payload
  let tagPart ← index data payloadLen (payloadLen + aeadSize)
  let tagPart ← copyFromSlice tagPart tag.toList
  let n := payloadLen + aeadSize
  let packetBuffer := messageType ++ receiverIndex ++ counter ++ sealed ++ tagPart ++ data.drop n
  let some packet := getRange packetBuffer 0 (dataOffset + n) | throw (.err .invalidLength)
  pure packet

/-- Open a data message into `dst`: the plaintext. The counter is checked before
decrypting and marked only after the tag verifies. -/
def receivePacketData (B : Backend) (packet : PacketData) (dst : List UInt8) :
    EStateM (Fault WireGuardError) Session (List UInt8) := do
  let ctLen := packet.encryptedEncapsulatedPacket.length
  if dst.length < ctLen then throw (.err .destinationBufferTooSmall)
  let s ← get
  if packet.receiverIdx ≠ s.receivingIndex then throw (.err .wrongIndex)
  match s.receivingCounterQuickCheck packet.counter with
  | .error e => throw (.err e)
  | .ok () => pure ()
  let some slot := getRange dst 0 ctLen | throw (.err .invalidLength)
  let _ ← copyFromSlice slot packet.encryptedEncapsulatedPacket
  let some plaintext := B.aeadOpen s.receiver (counterNonce packet.counter) []
      packet.encryptedEncapsulatedPacket
    | throw (.err .invalidAeadTag)
  receivingCounterMark packet.counter
  pure plaintext

end Session

/-- The length of the data message that carries `plainTextLen` bytes. -/
def messageDataLen (plainTextLen : Nat) : Nat := plainTextLen + aeadSize + dataOffset

end Neptun.Noise
