import IocpChat.Protocol
import IocpChat.RingWindow

/-!
`CPacket`: a reference-counted 4096-byte buffer with a read and a write cursor,
and the frame codec.  AES-128-CTR is a keystream that depends on the nonce, and
HMAC-SHA256 an arbitrary function to 32 bytes.
-/

namespace IocpChat.PacketBuffer

open IocpChat.Protocol
open IocpChat.RingWindow

def packetBufferSize : Nat := 4096
def pktNonceOffset : Nat := 2
def pktNonceSize : Nat := 12
def pktMacOffset : Nat := 14
def pktMacSize : Nat := 16
def pktMacFullSize : Nat := 32
def pktHeaderSize : Nat := 30

/-- The two OpenSSL primitives under the server's fixed keys: the CTR keystream
for the initial counter block of a nonce, and the HMAC of a message. -/
structure Crypto where
  keystream : List UInt8 → Nat → UInt8
  hmac : List UInt8 → List UInt8
  hmac_length : ∀ message, (hmac message).length = pktMacFullSize

/-- AES-128-CTR, which is its own inverse. -/
def Crypto.cipher (C : Crypto) (nonce bytes : List UInt8) : List UInt8 :=
  bytes.mapIdx fun i b => b ^^^ C.keystream nonce i

@[simp] theorem Crypto.cipher_length (C : Crypto) (nonce bytes : List UInt8) :
    (C.cipher nonce bytes).length = bytes.length := by
  simp [Crypto.cipher]

/-- No encryption and an all-zero MAC. -/
def Crypto.none : Crypto where
  keystream := fun _ _ => 0
  hmac := fun _ => List.replicate pktMacFullSize 0
  hmac_length := fun _ => List.length_replicate

/-- `CPacket` with its cursors in order, as every constructor and every guarded
access leaves them. -/
structure CPacket where
  buffer : Nat → UInt8
  readPos : Nat
  writePos : Nat
  refCount : Int
  header_le_readPos : pktHeaderSize ≤ readPos
  readPos_le_writePos : readPos ≤ writePos
  writePos_le_size : writePos ≤ packetBufferSize

namespace CPacket

/-- A new packet. -/
def new : CPacket where
  buffer := fun _ => 0
  readPos := pktHeaderSize
  writePos := pktHeaderSize
  refCount := 0
  header_le_readPos := le_refl _
  readPos_le_writePos := le_refl _
  writePos_le_size := by decide

/-- `Clear` resets the cursors and keeps the old bytes. -/
def clear (p : CPacket) : CPacket where
  buffer := p.buffer
  readPos := pktHeaderSize
  writePos := pktHeaderSize
  refCount := p.refCount
  header_le_readPos := le_refl _
  readPos_le_writePos := le_refl _
  writePos_le_size := by decide

/-- `GetDataSize`. -/
def getDataSize (p : CPacket) : Nat := p.writePos - p.readPos

/-- `GetPacketSize`. -/
def getPacketSize (p : CPacket) : Nat := p.writePos

/-- What is left to be read. -/
def payload (p : CPacket) : List UInt8 := slice p.buffer p.readPos p.getDataSize

/-- `ReadPacket(dest, len)` and `operator>>` with `sizeof(T) = len`: the bytes
stored to the destination, or `none` where the destination is left alone. -/
def readPacket (p : CPacket) (len : Nat) : Option (List UInt8) × CPacket :=
  if h : p.readPos + len ≤ p.writePos then
    (some (slice p.buffer p.readPos len),
      { p with
        readPos := p.readPos + len
        header_le_readPos := p.header_le_readPos.trans (Nat.le_add_right _ _)
        readPos_le_writePos := h })
  else (none, p)

/-- `*pkt >> word` on a variable that holds `old`. -/
def readWord (p : CPacket) (old : UInt16) : UInt16 × CPacket :=
  match p.readPacket 2 with
  | (some bytes, p') => (leWord (bytes.getD 0 0) (bytes.getD 1 0), p')
  | (none, p') => (old, p')

/-- `WritePacket(src, len)` and `operator<<` of a value with these bytes. -/
def writePacket (p : CPacket) (src : List UInt8) : CPacket :=
  if h : p.writePos + src.length ≤ packetBufferSize then
    { p with
      buffer := blit p.buffer p.writePos src
      writePos := p.writePos + src.length
      readPos_le_writePos := p.readPos_le_writePos.trans (Nat.le_add_right _ _)
      writePos_le_size := h }
  else p

/-- `AttachRaw`, which leaves the packet alone if the bytes do not fit. -/
def attachRaw (p : CPacket) (plainBuf : List UInt8) : CPacket :=
  if h : packetBufferSize - pktHeaderSize < plainBuf.length then p
  else
    { p with
      buffer := blit p.buffer pktHeaderSize plainBuf
      readPos := pktHeaderSize
      writePos := pktHeaderSize + plainBuf.length
      header_le_readPos := le_refl _
      readPos_le_writePos := Nat.le_add_right _ _
      writePos_le_size := by
        simp only [packetBufferSize, pktHeaderSize] at h ⊢
        omega }

end CPacket

/-- `Encode` with `out` the block `m`: nonce, cipher text, length and truncated
MAC are stored in this order. -/
def encode (C : Crypto) (nonce plain : List UInt8) (m : Nat → UInt8) : Nat → UInt8 :=
  let m := blit m pktNonceOffset nonce
  let m := blit m pktHeaderSize (C.cipher nonce plain)
  let m := blit m 0 (wordBytes (UInt16.ofNat plain.length))
  let mac := C.hmac (slice m 0 pktMacOffset ++ slice m pktHeaderSize plain.length)
  blit m pktMacOffset (mac.take pktMacSize)

/-- `SetHeader` encrypts in place: the plaintext is what stands behind the
header once the nonce has been stored. -/
def CPacket.setHeader (C : Crypto) (nonce : List UInt8) (p : CPacket) : CPacket :=
  let plain := slice (blit p.buffer pktNonceOffset nonce) pktHeaderSize
    (p.writePos - pktHeaderSize)
  { p with buffer := encode C nonce plain p.buffer }

/-- `Decode`, with `none` for the result `-1`. -/
def decode (C : Crypto) (frame : List UInt8) : Option (List UInt8) :=
  let len := leWord (frame.getD 0 0) (frame.getD 1 0)
  let nonce := (frame.drop pktNonceOffset).take pktNonceSize
  let recvMac := (frame.drop pktMacOffset).take pktMacSize
  let cipher := (frame.drop pktHeaderSize).take len.toNat
  let calcMac := C.hmac (frame.take pktMacOffset ++ cipher)
  if recvMac = calcMac.take pktMacSize then some (C.cipher nonce cipher) else none

theorem decode_length {C : Crypto} {frame plain : List UInt8}
    (h : decode C frame = some plain) :
    plain.length ≤ (leWord (frame.getD 0 0) (frame.getD 1 0)).toNat := by
  simp only [decode] at h
  split at h
  · have hplain := Option.some.inj h
    rw [← hplain, Crypto.cipher_length, List.length_take]
    exact Nat.min_le_left _ _
  · simp at h

theorem CPacket.payload_attachRaw (p : CPacket) {plain : List UInt8}
    (h : plain.length ≤ packetBufferSize - pktHeaderSize) :
    (p.attachRaw plain).payload = plain := by
  have hfit : ¬ packetBufferSize - pktHeaderSize < plain.length := by omega
  simp only [attachRaw, hfit, dite_false, payload, getDataSize,
    Nat.add_sub_cancel_left]
  exact slice_blit_self _ _ _

end IocpChat.PacketBuffer
